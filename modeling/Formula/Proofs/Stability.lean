import Formula.Proofs.Languages

/-!
What the lexer finds depends little on what stands behind it.

* `language_not_blank`: no token but a string has white space in its text;
* `date_found` and the like: a text of a kind is found in front of white space;
* `closing_stays`: so is a string, if no quotes come behind it that were not there before;
* `token_stable`: hence other characters can stand behind a token that was found.
-/

namespace Formula

open Formula.Text

namespace Lexer

/-! ## Characters that are not white space -/

/-- No character is in two tables whose intervals are apart. -/
theorem inRanges_apart (table : List (Nat × Nat)) {table' : List (Nat × Nat)} {c : Char}
    (hapart : ∀ r ∈ table, ∀ r' ∈ table', r.2 < r'.1 ∨ r'.2 < r.1)
    (h : inRanges table c = true) : inRanges table' c = false := by
  obtain ⟨r, hr, hc⟩ := List.any_eq_true.mp h
  refine List.any_eq_false.mpr fun r' hr' hc' => ?_
  have := hapart r hr r' hr'
  simp only [Bool.and_eq_true, decide_eq_true_eq] at hc hc'
  omega

/-- The characters between two letters or digits of ASCII are not white space. -/
theorem not_blank_of_between {low high c : Char} (hlow : 0x20 < low.toNat)
    (hhigh : high.toNat < 0x85) (h : low ≤ c ∧ c ≤ high) : isBlank c = false := by
  refine inRanges_apart [(0x21, 0x84)] (by decide) ?_
  have hle : low.toNat ≤ c.toNat := UInt32.le_iff_toNat_le.mp h.1
  have hge : c.toNat ≤ high.toNat := UInt32.le_iff_toNat_le.mp h.2
  simp only [inRanges, List.any_cons, List.any_nil, Bool.or_false, Bool.and_eq_true,
    decide_eq_true_eq]
  omega

theorem not_blank_of_anyDigit {c : Char} (h : isAnyDigit c = true) : isBlank c = false :=
  inRanges_apart digitRanges (by decide +kernel) h

theorem not_blank_of_inPath {c : Char} (h : inPath c = true) : isBlank c = false := by
  simp only [inPath, inName, isDigit, Bool.or_eq_true, Bool.and_eq_true, decide_eq_true_eq] at h
  rcases h with (((h | h) | rfl) | h) | rfl
  · exact not_blank_of_between (by decide) (by decide) h
  · exact not_blank_of_between (by decide) (by decide) h
  · rfl
  · exact not_blank_of_between (by decide) (by decide) h
  · rfl

theorem inPath_of_inName {c : Char} (h : inName c = true) : inPath c = true := by
  simp only [inPath, h, Bool.true_or]

theorem inName_of_isDigit {c : Char} (h : isDigit c = true) : inName c = true := by
  simp only [inName, h, Bool.or_true, Bool.true_or]

theorem not_blank_of_inDay {c : Char} (h : inDay c = true) : isBlank c = false := by
  simp only [inDay, Bool.or_eq_true, decide_eq_true_eq] at h
  rcases h with (h | rfl) | rfl
  · exact not_blank_of_anyDigit h
  · rfl
  · rfl

theorem not_blank_of_inTime {c : Char} (h : inTime c = true) : isBlank c = false := by
  simp only [inTime, Bool.or_eq_true, decide_eq_true_eq] at h
  rcases h with (h | rfl) | rfl
  · exact not_blank_of_anyDigit h
  · rfl
  · rfl

theorem not_blank_of_isDigit {c : Char} (h : isDigit c = true) : isBlank c = false :=
  not_blank_of_inPath (inPath_of_inName (inName_of_isDigit h))

theorem IsQuote.not_blank {q : Char} (h : IsQuote q) : isBlank q = false := by
  rcases h with rfl | rfl <;> rfl

theorem not_blank_of_any {cs : List Char} (h : cs.any isBlank = false) :
    ∀ c ∈ cs, isBlank c = false :=
  fun c hc => Bool.eq_false_iff.mpr (List.any_eq_false.mp h c hc)

theorem fraction_not_blank {cs : List Char} (h : Fraction cs) : ∀ c ∈ cs, isBlank c = false := by
  rcases h with rfl | ⟨ds, hds, rfl⟩
  · nofun
  · exact List.forall_mem_cons.mpr ⟨rfl, fun c hc => not_blank_of_isDigit (hds.2 c hc)⟩

theorem exponent_not_blank {cs : List Char} (h : Exponent cs) : ∀ c ∈ cs, isBlank c = false := by
  rcases h with rfl | ⟨sign, ds, hsign, hds, rfl⟩
  · nofun
  · have hdigits : ∀ c ∈ ds, isBlank c = false := fun c hc => not_blank_of_isDigit (hds.2 c hc)
    refine List.forall_mem_cons.mpr ⟨rfl, ?_⟩
    rcases hsign with rfl | rfl | rfl
    · exact hdigits
    · exact List.forall_mem_cons.mpr ⟨rfl, hdigits⟩
    · exact List.forall_mem_cons.mpr ⟨rfl, hdigits⟩

/-- The languages of all kinds but strings have no white space in their texts. -/
theorem language_not_blank {kind : TokenKind} {cs : List Char} (h : kind.Language cs)
    (hk : kind ≠ .literal .string) : ∀ c ∈ cs, isBlank c = false := by
  cases kind with
  | function => exact fun c hc => not_blank_of_inPath (inPath_of_inName (h.2 c hc))
  | reference =>
    obtain ⟨path, -, hpath, rfl⟩ := h
    intro c hc
    rcases List.mem_cons.mp hc with rfl | hc
    · rfl
    · rcases List.mem_append.mp hc with hc | hc
      · exact not_blank_of_inPath (hpath c hc)
      · obtain rfl := List.mem_singleton.mp hc
        rfl
  | operator o =>
    obtain rfl : cs = o.symbol.toList := h
    refine not_blank_of_any ?_
    cases o <;> rfl
  | openParen | closeParen | openBracket | closeBracket | comma =>
    obtain rfl : cs = _ := h
    exact not_blank_of_any rfl
  | literal kind =>
    cases kind with
    | string => exact absurd rfl hk
    | date =>
      obtain ⟨day, time, -, hday, -, htime, rfl⟩ := h
      intro c hc
      rcases List.mem_append.mp hc with hc | hc
      · exact not_blank_of_inDay (hday c hc)
      · rcases List.mem_cons.mp hc with rfl | hc
        · rfl
        · rcases List.mem_append.mp hc with hc | hc
          · exact not_blank_of_inTime (htime c hc)
          · obtain rfl := List.mem_singleton.mp hc
            rfl
    | number =>
      obtain ⟨whole, fraction, exponent, hw, hf, he, rfl⟩ := h
      intro c hc
      rcases List.mem_append.mp hc with hc | hc
      · exact not_blank_of_isDigit (hw.2 c hc)
      · rcases List.mem_append.mp hc with hc | hc
        · exact fraction_not_blank hf c hc
        · exact exponent_not_blank he c hc
    | boolean =>
      refine not_blank_of_any ?_
      rcases h with rfl | rfl <;> rfl
    | null | undefined | nan =>
      obtain rfl : cs = _ := h
      exact not_blank_of_any rfl

/-! ## Behind a token -/

/-- There are no characters, or white space comes first. -/
def Breaks (cs : List Char) : Prop := ∀ c ds, cs = c :: ds → isBlank c = true

/-- There are no characters, or the first one is not among those that `p` accepts. -/
def Stops (p : Char → Bool) (cs : List Char) : Prop := ∀ c ds, cs = c :: ds → p c = false

theorem Breaks.stops {p : Char → Bool} {cs : List Char} (h : Breaks cs)
    (hp : ∀ c, p c = true → isBlank c = false) : Stops p cs := by
  intro c ds hcs
  cases hc : p c with
  | false => rfl
  | true =>
    have hblank := h c ds hcs
    rw [hp c hc] at hblank
    cases hblank

theorem takeWhile_stops {p : Char → Bool} {text rest : List Char} (ht : ∀ c ∈ text, p c = true)
    (hr : Stops p rest) : (text ++ rest).takeWhile p = text := by
  rw [List.takeWhile_append_of_pos ht]
  cases rest with
  | nil => simp
  | cons c ds => simp [hr c ds rfl]

theorem dropWhile_stops {p : Char → Bool} {text rest : List Char} (ht : ∀ c ∈ text, p c = true)
    (hr : Stops p rest) : (text ++ rest).dropWhile p = rest := by
  rw [List.dropWhile_append_of_pos ht]
  cases rest with
  | nil => simp
  | cons c ds => simp [hr c ds rfl]

/-- Characters without white space in front of a break are in the text before the break. -/
theorem Breaks.length_le {text rest : List Char} (h : Breaks rest) {n : Nat}
    (hn : n ≤ (text ++ rest).length) (hfree : ∀ c ∈ (text ++ rest).take n, isBlank c = false) :
    n ≤ text.length := by
  cases rest with
  | nil =>
    rw [List.append_nil] at hn
    exact hn
  | cons c ds =>
    refine Nat.le_of_not_lt fun hlt => ?_
    have hmem : c ∈ (text ++ c :: ds).take n := by
      rw [List.take_append, List.mem_append]
      refine .inr ?_
      obtain ⟨m, hm⟩ : ∃ m, n - text.length = m + 1 := ⟨n - text.length - 1, by omega⟩
      rw [hm, List.take_succ_cons]
      exact .head _
    have hblank := h c ds rfl
    rw [hfree c hmem] at hblank
    cases hblank

/-! ## Texts that are found again -/

theorem date_found {text : List Char} (h : LiteralKind.date.Language text) (rest : List Char) :
    date (text ++ rest) = some (.literal .date, text.length) := by
  obtain ⟨day, time, hday, hinDay, htime, hinTime, rfl⟩ := h
  have hT : Stops inDay ('T' :: (time ++ 'Z' :: rest)) := by
    rintro c ds ⟨⟩
    decide
  have hZ : Stops inTime ('Z' :: rest) := by
    rintro c ds ⟨⟩
    decide
  have hcs : (day ++ 'T' :: (time ++ ['Z'])) ++ rest = day ++ 'T' :: (time ++ 'Z' :: rest) := by
    simp
  rw [hcs, date, takeWhile_stops hinDay hT, dropWhile_stops hinDay hT]
  simp only [takeWhile_stops hinTime hZ, dropWhile_stops hinTime hZ]
  simp [hday, htime]
  omega

theorem reference_found {text : List Char} (h : TokenKind.reference.Language text)
    (rest : List Char) : reference (text ++ rest) = some (.reference, text.length) := by
  obtain ⟨path, hne, hpath, rfl⟩ := h
  have hend : Stops inPath ('\x7d' :: rest) := by
    rintro c ds ⟨⟩
    decide
  have hcs : ('\x7b' :: (path ++ ['\x7d'])) ++ rest = '\x7b' :: (path ++ '\x7d' :: rest) := by
    simp
  rw [hcs, reference]
  simp only [takeWhile_stops hpath hend, dropWhile_stops hpath hend]
  simp [hne]

theorem comma_found {text : List Char} (h : TokenKind.comma.Language text) (rest : List Char) :
    comma (text ++ rest) = some (.comma, text.length) := by
  obtain rfl : text = [','] := h
  rfl

theorem function_found {text rest : List Char} (h : TokenKind.function.Language text)
    (hr : Breaks rest) : function (text ++ rest) = some (.function, text.length) := by
  have hstops := hr.stops fun c hc => not_blank_of_inPath (inPath_of_inName hc)
  rw [function, takeWhile_stops h.2 hstops]
  simp [h.1]

theorem Fraction.stops {p : Char → Bool} {cs rest : List Char} (h : Fraction cs)
    (hp : p '.' = false) (hr : Stops p rest) : Stops p (cs ++ rest) := by
  rcases h with rfl | ⟨ds, -, rfl⟩
  · exact hr
  · rintro c _ ⟨⟩
    exact hp

theorem Exponent.stops {p : Char → Bool} {cs rest : List Char} (h : Exponent cs)
    (hp : p 'e' = false) (hr : Stops p rest) : Stops p (cs ++ rest) := by
  rcases h with rfl | ⟨sign, ds, -, -, rfl⟩
  · exact hr
  · rintro c _ ⟨⟩
    exact hp

/-- Digits do not begin with a sign. -/
theorem Digits.stops_sign {ds rest : List Char} (h : Digits ds) :
    Stops (fun c => c = '+' ∨ c = '-') (ds ++ rest) := by
  cases ds with
  | nil => exact absurd rfl h.1
  | cons d ds =>
    rintro c _ ⟨⟩
    have hd := h.2 d (.head ds)
    refine decide_eq_false ?_
    rintro (rfl | rfl)
    · revert hd
      decide
    · revert hd
      decide

theorem fractionLength_found {fraction rest : List Char} (h : Fraction fraction)
    (hdigit : Stops isDigit rest) (hpoint : Stops (· = '.') rest) :
    fractionLength (fraction ++ rest) = fraction.length := by
  rcases h with rfl | ⟨ds, hds, rfl⟩
  · rw [List.nil_append]
    unfold fractionLength
    split
    · next ds => exact absurd (hpoint '.' ds rfl) (by decide)
    · rfl
  · rw [List.cons_append, fractionLength]
    simp only [takeWhile_stops hds.2 hdigit]
    simp [hds.1]

theorem signLength_found {sign rest : List Char} (h : Sign sign)
    (hr : Stops (fun c => c = '+' ∨ c = '-') rest) : signLength (sign ++ rest) = sign.length := by
  rcases h with rfl | rfl | rfl
  · cases rest with
    | nil => rfl
    | cons c ds =>
      have hc := hr c ds rfl
      simp only [decide_eq_false_iff_not] at hc
      simp [signLength, hc]
  · rfl
  · rfl

theorem exponentLength_found {exponent rest : List Char} (h : Exponent exponent)
    (hr : Breaks rest) : exponentLength (exponent ++ rest) = exponent.length := by
  rcases h with rfl | ⟨sign, ds, hsign, hds, rfl⟩
  · rw [List.nil_append]
    unfold exponentLength
    split
    · next ds => exact absurd (hr 'e' ds rfl) (by decide)
    · rfl
  · have hstops := hr.stops fun c hc => not_blank_of_isDigit hc
    have hcs : 'e' :: (sign ++ ds) ++ rest = 'e' :: (sign ++ (ds ++ rest)) := by simp
    rw [hcs, exponentLength]
    simp only [signLength_found hsign hds.stops_sign, List.drop_left,
      takeWhile_stops hds.2 hstops]
    simp [hds.1]
    omega

/-- The number ends before a break. -/
theorem number_found {text rest : List Char} (h : LiteralKind.number.Language text)
    (hr : Breaks rest) : number (text ++ rest) = some (.literal .number, text.length) := by
  obtain ⟨whole, fraction, exponent, hw, hf, he, rfl⟩ := h
  have hdigit : Stops isDigit (exponent ++ rest) :=
    he.stops (by decide) (hr.stops fun c hc => not_blank_of_isDigit hc)
  have hpoint : Stops (· = '.') (exponent ++ rest) :=
    he.stops (by decide) (hr.stops fun c hc => by rw [decide_eq_true_eq] at hc; subst hc; rfl)
  have hcs : (whole ++ (fraction ++ exponent)) ++ rest =
      whole ++ (fraction ++ (exponent ++ rest)) := by simp
  have hwhole : (whole ++ (fraction ++ (exponent ++ rest))).takeWhile isDigit = whole :=
    takeWhile_stops hw.2 (hf.stops (by decide) hdigit)
  have hne : ¬ whole.length = 0 := fun h0 => hw.1 (List.length_eq_zero_iff.mp h0)
  rw [hcs, number, hwhole]
  simp only [hne, ↓reduceIte, List.drop_left, fractionLength_found hf hdigit hpoint]
  rw [← List.drop_drop, List.drop_left, List.drop_left, exponentLength_found he hr]
  simp only [List.length_append, Nat.add_assoc]

/-! ## What is found with other characters behind it -/

/-- Other characters behind a text: white space comes first, if there are any, and there are no
quotes that were not there before. -/
structure Replaces (rest' rest : List Char) : Prop where
  breaks : Breaks rest'
  quotes : ∀ q, IsQuote q → q ∈ rest' → q ∈ rest

/-- With other characters behind a text, the text is found again if it was found, and nothing is
found if nothing was. -/
def Stable (find : List Char → Match) : Prop :=
  ∀ text rest rest', text ≠ [] → Replaces rest' rest →
    (∀ kind, find (text ++ rest) = some (kind, text.length) →
      find (text ++ rest') = some (kind, text.length)) ∧
    (find (text ++ rest) = none → find (text ++ rest') = none)

theorem Stable.or {find find' : List Char → Match} (h : Stable find) (h' : Stable find') :
    Stable fun cs => (find cs).or (find' cs) := by
  intro text rest rest' hne hr
  obtain ⟨hkeep, hnone⟩ := h text rest rest' hne hr
  obtain ⟨hkeep', hnone'⟩ := h' text rest rest' hne hr
  refine ⟨?_, ?_⟩
  · intro kind hfind
    rcases Option.or_eq_some_iff.mp hfind with hf | ⟨hn, hf⟩
    · exact Option.or_eq_some_iff.mpr (.inl (hkeep kind hf))
    · exact Option.or_eq_some_iff.mpr (.inr ⟨hnone hn, hkeep' kind hf⟩)
  · intro hfind
    obtain ⟨hn, hn'⟩ := Option.or_eq_none_iff.mp hfind
    exact Option.or_eq_none_iff.mpr ⟨hnone hn, hnone' hn'⟩

/-- Texts that are found whatever stands behind them are found again. -/
theorem Stable.of_found {find : List Char → Match} (kind : TokenKind)
    (hk : kind ≠ .literal .string)
    (hlanguage : ∀ cs kind' n, find cs = some (kind', n) →
      kind' = kind ∧ n ≤ cs.length ∧ kind.Language (cs.take n))
    (hfound : ∀ text rest, kind.Language text → find (text ++ rest) = some (kind, text.length)) :
    Stable find := by
  intro text rest rest' _ hr
  refine ⟨?_, ?_⟩
  · intro kind' h
    obtain ⟨rfl, -, htext⟩ := hlanguage _ _ _ h
    rw [List.take_left] at htext
    exact hfound text rest' htext
  · intro hnone
    cases hfind : find (text ++ rest') with
    | none => rfl
    | some m =>
      -- What is found with the other characters is in the text, and is found there before.
      obtain ⟨kind', n⟩ := m
      obtain ⟨rfl, hn, htext⟩ := hlanguage _ _ _ hfind
      have hle := hr.breaks.length_le hn (language_not_blank htext hk)
      rw [List.take_append_of_le_length hle] at htext
      have hbefore := hfound _ (text.drop n ++ rest) htext
      rw [← List.append_assoc, List.take_append_drop, hnone] at hbefore
      cases hbefore

theorem date_stable : Stable date :=
  .of_found (.literal .date) nofun
    (fun _ _ _ h => ⟨(date_eq_some h).1, (date_eq_some h).2.2, date_language h⟩)
    fun _ rest h => date_found h rest

theorem reference_stable : Stable reference :=
  .of_found .reference nofun
    (fun _ _ _ h => ⟨(reference_eq_some h).1, (reference_eq_some h).2.2, reference_language h⟩)
    fun _ rest h => reference_found h rest

theorem comma_stable : Stable comma := by
  refine .of_found .comma nofun ?_ fun _ rest h => comma_found h rest
  intro cs kind n h
  obtain ⟨hkind, -, hle, htake⟩ := comma_eq_some h
  exact ⟨hkind, hle, htake⟩

/-- A number begins at a digit and at nothing else. -/
theorem number_eq_none {c : Char} {cs : List Char} :
    number (c :: cs) = none ↔ isDigit c = false := by
  cases hc : isDigit c <;> simp [number, hc]

theorem number_stable : Stable number := by
  intro text rest rest' hne hr
  refine ⟨?_, ?_⟩
  · intro kind h
    obtain ⟨rfl, -⟩ := number_eq_some h
    have htext := number_language h
    rw [List.take_left] at htext
    exact number_found htext hr.breaks
  · cases text with
    | nil => exact absurd rfl hne
    | cons c text => exact fun h => number_eq_none.mpr (number_eq_none.mp h)

/-- The name of a function begins at a character of names and at nothing else. -/
theorem function_eq_none {c : Char} {cs : List Char} :
    function (c :: cs) = none ↔ inName c = false := by
  cases hc : inName c <;> simp [function, hc]

theorem function_stable : Stable function := by
  intro text rest rest' hne hr
  refine ⟨?_, ?_⟩
  · intro kind h
    obtain ⟨rfl, -⟩ := function_eq_some h
    have htext := function_language h
    rw [List.take_left] at htext
    exact function_found htext hr.breaks
  · cases text with
    | nil => exact absurd rfl hne
    | cons c text => exact fun h => function_eq_none.mpr (function_eq_none.mp h)

/-! ## Fixed spellings -/

/-- A spelling without white space that begins a text in front of a break begins the text. -/
theorem Breaks.prefix_of_prefix {s text rest : List Char} (h : Breaks rest)
    (hfree : ∀ c ∈ s, isBlank c = false) (hs : s <+: text ++ rest) : s <+: text := by
  refine List.prefix_of_prefix_length_le hs (List.prefix_append text rest) ?_
  refine h.length_le hs.length_le ?_
  rw [← List.prefix_iff_eq_take.mp hs]
  exact hfree

theorem symbols_not_string : ∀ e ∈ symbols, e.2 ≠ .literal .string := by decide

theorem keywords_not_string : ∀ e ∈ keywords, e.2 ≠ .literal .string := by decide

theorem lateSymbols_not_string : ∀ e ∈ lateSymbols, e.2 ≠ .literal .string := by decide

/-- The spellings of a table without white space are found again. -/
theorem fixed_stable {table : List (String × TokenKind)}
    (hfree : ∀ e ∈ table, ∀ c ∈ e.1.toList, isBlank c = false) : Stable (fixed table) := by
  intro text rest rest' _ hr
  -- A spelling that was not there is not there with the other characters either.
  have habsent : ∀ e ∈ table, e.1.toList.isPrefixOf (text ++ rest) = false →
      e.1.toList.isPrefixOf (text ++ rest') = false := by
    intro e he hno
    refine Bool.eq_false_iff.mpr fun hyes => ?_
    have htext := hr.breaks.prefix_of_prefix (hfree e he) (List.isPrefixOf_iff_prefix.mp hyes)
    have hbefore := htext.trans (List.prefix_append text rest)
    rw [List.isPrefixOf_iff_prefix.mpr hbefore] at hno
    cases hno
  refine ⟨?_, ?_⟩
  · intro kind h
    simp only [fixed, Option.map_eq_some_iff, Prod.mk.injEq] at h ⊢
    obtain ⟨e, hfind, hkind, hlength⟩ := h
    obtain ⟨hhere, front, back, hsplit, hfront⟩ := List.find?_eq_some_iff_append.mp hfind
    refine ⟨e, List.find?_eq_some_iff_append.mpr ⟨?_, front, back, hsplit, ?_⟩, hkind, hlength⟩
    · have htext : e.1.toList = text := by
        have htake := List.prefix_iff_eq_take.mp (List.isPrefixOf_iff_prefix.mp hhere)
        rw [htake, String.length_toList, hlength, List.take_left]
      rw [htext]
      exact List.isPrefixOf_iff_prefix.mpr (List.prefix_append text rest')
    · intro a ha
      have hmem : a ∈ table := by
        rw [hsplit]
        exact List.mem_append_left _ ha
      have hno := hfront a ha
      rw [Bool.not_eq_true'] at hno ⊢
      exact habsent a hmem hno
  · intro h
    simp only [fixed, Option.map_eq_none_iff, List.find?_eq_none] at h ⊢
    intro e he
    have hno := Bool.eq_false_iff.mpr (h e he)
    rw [habsent e he hno]
    exact Bool.false_ne_true

/-! ## Strings -/

/-- Where no quote follows, the quote that was found last closes. -/
theorem closing_of_not_mem {q : Char} {n : Nat} {last : Option Nat} {cs : List Char}
    (h : q ∉ cs) : closing q n last cs = last := by
  fun_induction closing q n last cs with
  | case1 n last => rfl
  | case2 n last cs ih => exact ih fun hmem => h (.tail _ (.tail _ hmem))
  | case3 n last cs hc ih => exact absurd (.tail _ (.head cs)) h
  | case4 n last c cs hc hq ih => exact ih fun hmem => h (.tail _ (.tail _ hmem))
  | case5 n last cs => exact absurd (.head cs) h
  | case6 n last c cs hesc hc ih => exact ih fun hmem => h (.tail _ hmem)

/-- Where a quote follows, a later one than before closes. -/
theorem closing_of_mem {q : Char} (hq : q ≠ '\\') (n : Nat) (last : Option Nat) {cs : List Char}
    (h : q ∈ cs) : ∃ m, closing q n last cs = some m ∧ n < m := by
  fun_induction closing q n last cs with
  | case1 n last => cases h
  | case2 n last cs ih =>
    obtain ⟨m, hm, hlt⟩ := ih (List.mem_of_ne_of_mem hq (List.mem_of_ne_of_mem hq h))
    exact ⟨m, hm, by omega⟩
  | case3 n last cs hc ih =>
    by_cases hmem : q ∈ cs
    · obtain ⟨m, hm, hlt⟩ := ih hmem
      exact ⟨m, hm, by omega⟩
    · exact ⟨n + 2, closing_of_not_mem hmem, by omega⟩
  | case4 n last c cs hc hcq ih =>
    have hbehind := List.mem_of_ne_of_mem hq h
    obtain ⟨m, hm, hlt⟩ := ih (List.mem_of_ne_of_mem (Ne.symm hcq) hbehind)
    exact ⟨m, hm, by omega⟩
  | case5 n last cs => exact ⟨n + 1, rfl, by omega⟩
  | case6 n last c cs hesc hc ih =>
    obtain ⟨m, hm, hlt⟩ := ih (List.mem_of_ne_of_mem (Ne.symm hc) h)
    exact ⟨m, hm, by omega⟩

/-- What closes is the quote that was found last, or a later one. -/
theorem closing_last_or {q : Char} (hq : q ≠ '\\') {n m : Nat} {last : Option Nat}
    {cs : List Char} (h : closing q n last cs = some m) : last = some m ∨ n < m := by
  by_cases hmem : q ∈ cs
  · obtain ⟨m', hm', hlt⟩ := closing_of_mem hq n last hmem
    rw [h] at hm'
    cases hm'
    exact .inr hlt
  · rw [closing_of_not_mem hmem] at h
    exact .inl h

theorem closing_plain {q c : Char} (hc : c ≠ '\\') (n : Nat) (last : Option Nat)
    (cs : List Char) : closing q n last (c :: cs) =
      if c = q then some (n + 1) else closing q (n + 1) last cs := by
  rw [closing.eq_def]
  split
  · next h => cases h
  · next h =>
    cases h
    exact absurd rfl hc
  · next h =>
    cases h
    rfl

/-- The character behind a backslash does not close. -/
theorem closing_backslash {q : Char} (hq : q ≠ '\\') {n : Nat} {last : Option Nat}
    {cs : List Char} (hlast : ∀ l, last = some l → l ≤ n) :
    closing q n last ('\\' :: cs) ≠ some (n + 1) := by
  intro h
  cases cs with
  | nil =>
    rw [closing.eq_def] at h
    simp only [hq.symm, ↓reduceIte, closing] at h
    have := hlast _ h
    omega
  | cons d ds =>
    rw [closing] at h
    have hother : ∀ last', closing q (n + 2) last' ds = some (n + 1) → last' = some (n + 1) := by
      intro last' h'
      rcases closing_last_or hq h' with hl | hlt
      · exact hl
      · omega
    split at h
    · have := hlast _ (hother last h)
      omega
    · split at h
      · have := Option.some.inj (hother _ h)
        omega
      · have := hlast _ (hother last h)
        omega

/-- The closing quote at the end of a text stays where it is when no quotes come behind it that were
not there before. -/
theorem closing_stays {q : Char} (hq : q ≠ '\\') (n : Nat) (last : Option Nat)
    (body : List Char) {rest rest' : List Char} (hlast : ∀ l, last = some l → l ≤ n)
    (hrest : q ∈ rest' → q ∈ rest)
    (h : closing q n last (body ++ rest) = some (n + body.length)) :
    closing q n last (body ++ rest') = some (n + body.length) := by
  fun_induction closing q n last body with
  | case1 n last =>
    rw [List.nil_append] at h ⊢
    have hnot : q ∉ rest := by
      intro hmem
      obtain ⟨m, hm, hlt⟩ := closing_of_mem hq n last hmem
      rw [h] at hm
      cases hm
      exact absurd hlt (Nat.lt_irrefl _)
    rw [closing_of_not_mem hnot] at h
    rw [closing_of_not_mem (mt hrest hnot)]
    exact h
  | case2 n last cs ih =>
    simp only [List.cons_append, closing, ↓reduceIte, List.length_cons] at h ⊢
    rw [show n + (cs.length + 1 + 1) = n + 2 + cs.length by omega] at h ⊢
    exact ih (fun l hl => Nat.le_trans (hlast l hl) (Nat.le_add_right ..)) h
  | case3 n last cs hc ih =>
    simp only [List.cons_append, closing, hc, ↓reduceIte, List.length_cons] at h ⊢
    rw [show n + (cs.length + 1 + 1) = n + 2 + cs.length by omega] at h ⊢
    exact ih (fun l hl => by cases hl; exact Nat.le_refl _) h
  | case4 n last c cs hc hcq ih =>
    simp only [List.cons_append, closing, hc, hcq, ↓reduceIte, List.length_cons] at h ⊢
    rw [show n + (cs.length + 1 + 1) = n + 2 + cs.length by omega] at h ⊢
    exact ih (fun l hl => Nat.le_trans (hlast l hl) (Nat.le_add_right ..)) h
  | case5 n last cs hesc =>
    rw [List.cons_append, closing_plain hq, if_pos rfl] at h ⊢
    exact h
  | case6 n last c cs hesc hc ih =>
    by_cases hback : c = '\\'
    · -- The backslash ends the text, so that the quote would stand behind it.
      subst hback
      cases cs with
      | nil => exact absurd h (closing_backslash hq hlast)
      | cons d ds => exact (hesc d ds rfl rfl).elim
    · rw [List.cons_append, closing_plain hback, if_neg hc, List.length_cons,
        show n + (cs.length + 1) = n + 1 + cs.length by omega] at h ⊢
      exact ih (fun l hl => Nat.le_trans (hlast l hl) (Nat.le_add_right ..)) h

theorem string_stable : Stable string := by
  intro text rest rest' hne hr
  cases text with
  | nil => exact absurd rfl hne
  | cons q body =>
    rw [List.cons_append, List.cons_append, string, string]
    by_cases hq : q = '\u0022' ∨ q = '\''
    · have hback := IsQuote.ne_backslash hq
      simp only [hq, ↓reduceIte, Option.map_eq_none_iff, Option.map_eq_some_iff, Prod.mk.injEq]
      refine ⟨?_, ?_⟩
      · rintro kind ⟨m, hm, rfl, hlength⟩
        obtain rfl : m = body.length := by
          rw [List.length_cons] at hlength
          omega
        refine ⟨body.length, ?_, rfl, hlength⟩
        have hstays := closing_stays hback 0 none body (fun _ h => by cases h) (hr.quotes q hq)
        rw [Nat.zero_add] at hstays
        exact hstays hm
      · intro hnone
        refine closing_of_not_mem fun hmem => ?_
        have hbefore : q ∈ body ++ rest := by
          rcases List.mem_append.mp hmem with hmem | hmem
          · exact List.mem_append_left _ hmem
          · exact List.mem_append_right _ (hr.quotes q hq hmem)
        obtain ⟨m, hm, -⟩ := closing_of_mem hback 0 none hbefore
        rw [hnone] at hm
        cases hm
    · simp [hq]

/-! ## Tokens -/

/-- With other characters behind a token, the token is found again. -/
theorem token_stable : Stable token := by
  have hsymbols : Stable (fixed symbols) := fixed_stable fun e he =>
    language_not_blank (symbols_language e he) (symbols_not_string e he)
  have hkeywords : Stable (fixed keywords) := fixed_stable fun e he =>
    language_not_blank (keywords_language e he) (keywords_not_string e he)
  have hlateSymbols : Stable (fixed lateSymbols) := fixed_stable fun e he =>
    language_not_blank (lateSymbols_language e he) (lateSymbols_not_string e he)
  exact hsymbols.or <| date_stable.or <| string_stable.or <| hkeywords.or <| number_stable.or <|
    hlateSymbols.or <| function_stable.or <| reference_stable.or comma_stable

end Lexer

end Formula
