import Mathlib
import Formula.Proofs.Pieces
import Formula.Proofs.Positions
import Formula.Proofs.Strings
import Formula.Proofs.Sums

/-!
Paths of names and chains of keys reach the same data.

* `atPath?_append`: a path that consists of two is followed along the one and then the other;
* `index_eq_child`: a name in a path and the same text as a key find the same, where they suit the
  value;
* `Arrives.keys` and `parse_keys`: the tokens and the term of a reference with keys behind it;
* `dotted_chained`: hence a reference to a path has the value of a reference to its front with the
  names behind that as keys, and `dotted_chained_empty` an empty name of which this is not true.
-/

namespace Formula

/-! ## Two paths -/

namespace Text

theorem ontoFirst_append (c : Char) {pieces : List (List Char)} (h : pieces ≠ [])
    (rest : List (List Char)) : ontoFirst c (pieces ++ rest) = ontoFirst c pieces ++ rest := by
  cases pieces with
  | nil => exact absurd rfl h
  | cons piece pieces => rfl

/-- A separator of one character is found where it stands. -/
theorem piecesFrom_cons (d c : Char) (cs : List Char) :
    piecesFrom [d] 0 (c :: cs) =
      if d = c then [] :: piecesFrom [d] 0 cs else ontoFirst c (piecesFrom [d] 0 cs) := by
  have hbegins : [d].isPrefixOf (c :: cs) = true ↔ d = c := by
    rw [List.isPrefixOf_iff_prefix, List.cons_prefix_cons]
    exact and_iff_left List.nil_prefix
  rw [piecesFrom]
  simp only [hbegins]
  rfl

/-- The pieces before and behind a separator meet there. -/
theorem piecesFrom_append (d : Char) (xs ys : List Char) :
    piecesFrom [d] 0 (xs ++ d :: ys) = piecesFrom [d] 0 xs ++ piecesFrom [d] 0 ys := by
  induction xs with
  | nil =>
    rw [List.nil_append, piecesFrom_cons, if_pos rfl]
    rfl
  | cons x xs ih =>
    have hne : piecesFrom [d] 0 xs ≠ [] := (piecesFrom_cuts (List.cons_ne_nil d []) 0 xs).ne_nil
    rw [List.cons_append, piecesFrom_cons, piecesFrom_cons, ih, ontoFirst_append x hne]
    split <;> rfl

theorem pieces_append (p q : String) :
    pieces "." (p ++ "." ++ q) = pieces "." p ++ pieces "." q := by
  have hpoint : ".".toList = ['.'] := rfl
  rw [pieces, pieces, pieces, String.toList_append, String.toList_append, hpoint,
    List.append_assoc, List.singleton_append, piecesFrom_append, List.map_append]

/-- A name without a separator is one piece. -/
theorem pieces_name {s : String} (h : '.' ∉ s.toList) : pieces "." s = [s] := by
  have hpiece : ∀ cs : List Char, '.' ∉ cs → piecesFrom ['.'] 0 cs = [cs] := by
    intro cs hcs
    induction cs with
    | nil => rfl
    | cons c cs ih =>
      have hne : '.' ≠ c := fun heq => hcs (heq ▸ .head _)
      rw [piecesFrom_cons, if_neg hne, ih fun hmem => hcs (.tail _ hmem)]
      rfl
  rw [pieces, show ".".toList = ['.'] from rfl, hpiece s.toList h, List.map_singleton,
    String.ofList_toList]

theorem joined_cons_cons (p s : String) (segs : List String) :
    joined "." (p :: s :: segs) = joined "." ((p ++ "." ++ s) :: segs) := by
  rw [joined_cons (List.cons_ne_nil s segs)]
  cases segs with
  | nil => rfl
  | cons t segs =>
    rw [joined_cons (List.cons_ne_nil t segs), joined_cons (List.cons_ne_nil t segs)]
    simp only [String.append_assoc]

end Text

namespace Value

open Lexer (inPath inPlainName)

theorem along?_append (v : Value) (xs ys : List String) :
    v.along? (xs ++ ys) = (v.along? xs).bind (·.along? ys) := by
  induction xs generalizing v with
  | nil => rfl
  | cons x xs ih =>
    rw [List.cons_append, along?, along?, Option.bind_assoc]
    congr 1
    funext next
    exact ih next

/-- A path of two paths is followed along the one and then along the other. -/
theorem atPath?_append (v : Value) (p q : String) :
    v.atPath? (p ++ "." ++ q) = (v.atPath? p).bind (·.atPath? q) := by
  unfold atPath?
  rw [Text.pieces_append, along?_append]

/-! ## Names as keys -/

/-- A name may stand for a key of a value: the value is no text, and an array is not too long and
not asked for the empty name. -/
def Suits (name : String) : Value → Prop
  | .string _ => False
  | .array items => items.length < 2 ^ 53 ∧ name ≠ ""
  | _ => True

/-- The name and the key find the same. -/
theorem index_eq_child {v : Value} {s : String} (hsuits : v.Suits s)
    (h : ∀ c ∈ s.toList, inPlainName c = true) :
    v.index (.string s) = (v.child? s).getD .undefined := by
  cases v with
  | string t => exact hsuits.elim
  | array items =>
    obtain ⟨hlength, hne⟩ := hsuits
    rw [child?, ← item_of_name hlength hne h, index]
    cases (Value.string s).position? <;> rfl
  | undefined | null | boolean b | number x | date t | object fields => rfl

theorem atPath_name (vars : Value) (p : String) {s : String} (h : '.' ∉ s.toList) :
    vars.atPath (p ++ "." ++ s) = ((vars.atPath p).child? s).getD .undefined := by
  have hone (v : Value) : v.atPath? s = v.child? s := by
    rw [atPath?, Text.pieces_name h, along?]
    cases v.child? s <;> rfl
  rw [atPath, atPath, atPath?_append]
  cases vars.atPath? p with
  | none => rfl
  | some v => rw [Option.bind_some, hone, Option.getD_some]

/-- Along names that suit what is reached, a path leads where the names as keys lead. -/
theorem foldl_index {vars : Value} {p : String} {segs : List String}
    (hnames : ∀ s ∈ segs, ∀ c ∈ s.toList, inPlainName c = true)
    (hsuits : ∀ (i : Nat) (hi : i < segs.length),
      (vars.atPath (Text.joined "." (p :: segs.take i))).Suits segs[i]) :
    segs.foldl (fun v s => v.index (.string s)) (vars.atPath p) =
      vars.atPath (Text.joined "." (p :: segs)) := by
  induction segs generalizing p with
  | nil => rfl
  | cons s segs ih =>
    obtain ⟨hname, hnames⟩ := List.forall_mem_cons.mp hnames
    have hpoint : '.' ∉ s.toList := fun hmem => by cases hname '.' hmem
    have hstep : (vars.atPath p).index (.string s) = vars.atPath (p ++ "." ++ s) := by
      rw [atPath_name vars p hpoint]
      exact index_eq_child (hsuits 0 (Nat.zero_lt_succ _)) hname
    rw [List.foldl_cons, hstep, Text.joined_cons_cons]
    refine ih hnames fun i hi => ?_
    rw [← Text.joined_cons_cons]
    exact hsuits (i + 1) (Nat.succ_lt_succ hi)

end Value

/-! ## Tokens -/

def braced (path : String) : String := "\x7b" ++ path ++ "\x7d"

def bracketed (name : String) : String := "['" ++ name ++ "']"

namespace Grammar

def pathToken (path : String) : Token := ⟨.reference, braced path, 0⟩

def quotedToken (s : String) : Token := ⟨.literal .string, "'" ++ s ++ "'", 0⟩

/-- Keys, each a string in brackets. -/
def keyTokens (segs : List String) : List Token :=
  segs.flatMap fun s => [.delimiter .openBracket, quotedToken s, .delimiter .closeBracket]

end Grammar

namespace Lexer

open Grammar

/-- Characters that are neither the quote nor a backslash reach up to the quote behind them. -/
theorem closing_of_plain {q : Char} {cs : List Char} (h : ∀ c ∈ cs, c ≠ '\\' ∧ c ≠ q)
    (hq : q ≠ '\\') (n : Nat) (last : Option Nat) (rest : List Char) :
    closing q n last (cs ++ q :: rest) = some (n + cs.length + 1) := by
  induction cs generalizing n with
  | nil => rw [List.nil_append, closing_plain hq, if_pos rfl]; rfl
  | cons c cs ih =>
    obtain ⟨⟨hbackslash, hquote⟩, hrest⟩ := List.forall_mem_cons.mp h
    rw [List.cons_append, closing_plain hbackslash, if_neg hquote, ih hrest, List.length_cons]
    congr 1
    omega

/-- At a brace the lexer finds a reference or nothing. -/
theorem token_brace (cs : List Char) : token ('\x7b' :: cs) = reference ('\x7b' :: cs) := by
  have hothers : fixed symbols ('\x7b' :: cs) = none ∧ date ('\x7b' :: cs) = none ∧
      string ('\x7b' :: cs) = none ∧ fixed keywords ('\x7b' :: cs) = none ∧
      number ('\x7b' :: cs) = none ∧ fixed lateSymbols ('\x7b' :: cs) = none ∧
      function ('\x7b' :: cs) = none ∧ comma ('\x7b' :: cs) = none :=
    ⟨rfl, rfl, rfl, rfl, rfl, rfl, rfl, rfl⟩
  obtain ⟨h₁, h₂, h₃, h₄, h₅, h₆, h₇, h₈⟩ := hothers
  simp only [token, h₁, h₂, h₃, h₄, h₅, h₆, h₇, h₈, Option.none_or, Option.or_none]

variable {formula : String} {offset : Nat} {rest : List Char} {done : List Lexeme}

/-- A reference in front of anything is found. -/
theorem Arrives.reference {path : String} (hne : path ≠ "")
    (hpath : ∀ c ∈ path.toList, inPath c = true)
    (h : Arrives formula offset ((braced path).toList ++ rest) done) :
    ∃ (t : Token) (offset' : Nat), t.face = (pathToken path).face ∧
      Arrives formula offset' rest (done ++ [.token t]) := by
  have hchars : (braced path).toList = '\x7b' :: (path.toList ++ ['\x7d']) := by
    simp [braced, String.toList_append]
  have htext : String.ofList ('\x7b' :: (path.toList ++ ['\x7d'])) = braced path := by
    rw [← hchars, String.ofList_toList]
  have hlanguage : TokenKind.reference.Language ('\x7b' :: (path.toList ++ ['\x7d'])) :=
    ⟨path.toList, mt String.toList_eq_nil_iff.mp hne, hpath, rfl⟩
  have htoken : Lexer.token ('\x7b' :: (path.toList ++ ['\x7d']) ++ rest) =
      some (.reference, ('\x7b' :: (path.toList ++ ['\x7d'])).length) := by
    rw [List.cons_append, token_brace, ← List.cons_append, reference_found hlanguage]
  rw [hchars] at h
  have harrives := h.token rfl htoken
  rw [htext] at harrives
  exact ⟨⟨.reference, braced path, offset⟩, _, rfl, harrives⟩

/-- A string without quotes and backslashes is found in front of anything. -/
theorem token_quoted {cs : List Char} (h : ∀ c ∈ cs, c ≠ '\\' ∧ c ≠ '\'') (rest : List Char) :
    token ('\'' :: (cs ++ ['\'']) ++ rest) =
      some (.literal .string, ('\'' :: (cs ++ ['\''])).length) := by
  rw [List.cons_append, token_quote (.inr rfl), string_quote (.inr rfl), List.append_assoc,
    List.singleton_append, closing_of_plain h (by decide), Option.map_some, Nat.zero_add,
    List.length_cons, List.length_append, List.length_singleton]

/-- A key in front of anything is found. -/
theorem Arrives.key {s : String} (hs : ∀ c ∈ s.toList, inPlainName c = true)
    (h : Arrives formula offset ((bracketed s).toList ++ rest) done) :
    ∃ (ts : List Token) (offset' : Nat), ts.map Token.face = (keyTokens [s]).map Token.face ∧
      Arrives formula offset' rest (done ++ ts.map .token) := by
  have hchars : (bracketed s).toList ++ rest =
      '[' :: [] ++ ('\'' :: (s.toList ++ ['\'']) ++ (']' :: [] ++ rest)) := by
    simp [bracketed, String.toList_append]
  have htext : String.ofList ('\'' :: (s.toList ++ ['\''])) = (quotedToken s).text := by
    rw [← String.toList_inj, String.toList_ofList]
    simp [quotedToken, String.toList_append]
  have hplain : ∀ c ∈ s.toList, c ≠ '\\' ∧ c ≠ '\'' := by
    intro c hc
    constructor <;> rintro rfl <;> cases hs _ hc
  rw [hchars] at h
  have hopen := h.token rfl rfl
  have hstring := hopen.token rfl (token_quoted hplain _)
  have hclose := hstring.token rfl rfl
  rw [htext, List.append_assoc, List.append_assoc] at hclose
  let behind : Nat := offset + bytes ['[']
  exact ⟨[⟨.openBracket, "[", offset⟩, ⟨.literal .string, (quotedToken s).text, behind⟩,
    ⟨.closeBracket, "]", behind + bytes ('\'' :: (s.toList ++ ['\'']))⟩], _, rfl, hclose⟩

/-- So are keys one after another. -/
theorem Arrives.keys {segs : List String}
    (hnames : ∀ s ∈ segs, ∀ c ∈ s.toList, inPlainName c = true)
    (h : Arrives formula offset ((String.join (segs.map bracketed)).toList ++ rest) done) :
    ∃ (ts : List Token) (offset' : Nat), ts.map Token.face = (keyTokens segs).map Token.face ∧
      Arrives formula offset' rest (done ++ ts.map .token) := by
  induction segs generalizing offset done with
  | nil => exact ⟨[], offset, rfl, by simpa using h⟩
  | cons s segs ih =>
    obtain ⟨hs, hnames⟩ := List.forall_mem_cons.mp hnames
    rw [List.map_cons, String.join_cons, String.toList_append, List.append_assoc] at h
    obtain ⟨ts, offset₁, hts, h₁⟩ := h.key hs
    obtain ⟨us, offset₂, hus, h₂⟩ := ih hnames h₁
    rw [List.append_assoc, ← List.map_append] at h₂
    refine ⟨ts ++ us, offset₂, ?_, h₂⟩
    rw [List.map_append, hts, hus, ← List.map_append]
    rfl

/-- Where the lexer arrives at the end with tokens alone, they are those of the formula. -/
theorem Arrives.spells {ts us : List Token} (h : Arrives formula offset [] (ts.map .token))
    (hfaces : ts.map Token.face = us.map Token.face) : Spells formula us := by
  have hscan : scan formula = ts.map .token := by
    rw [h.scan_eq]
    exact List.append_nil _
  constructor
  · rw [lexErrors, hscan]
    simp
  · rw [tokens, hscan, ← hfaces]
    simp

/-- A reference with keys behind it consists of their tokens. -/
theorem spells_keys {path : String} {segs : List String} (hne : path ≠ "")
    (hpath : ∀ c ∈ path.toList, inPath c = true)
    (hnames : ∀ s ∈ segs, ∀ c ∈ s.toList, inPlainName c = true) :
    Spells (braced path ++ String.join (segs.map bracketed))
      (pathToken path :: keyTokens segs) := by
  have hstart : Arrives (braced path ++ String.join (segs.map bracketed)) 0
      ((braced path).toList ++ ((String.join (segs.map bracketed)).toList ++ [])) [] := by
    rw [List.append_nil, ← String.toList_append]
    exact .start
  obtain ⟨t, offset, ht, hbehind⟩ := hstart.reference hne hpath
  obtain ⟨ts, offset', hts, hend⟩ := hbehind.keys hnames
  have hend : Arrives _ offset' [] ((t :: ts).map .token) := hend
  refine hend.spells ?_
  rw [List.map_cons, List.map_cons, ht, hts]

end Lexer

/-! ## Terms -/

namespace Grammar

def keyTerms (segs : List String) : List Term := segs.map fun s => .literal (quotedToken s)

theorem reads_keys (segs : List String) (rest : List Token) :
    Reads (.keys (keyTerms segs)) (keyTokens segs ++ rest) rest := by
  induction segs with
  | nil => exact .noKeys
  | cons s segs ih =>
    have hliteral (us : List Token) :
        Reads (.atomic (.literal (quotedToken s))) (quotedToken s :: us) us :=
      .atomic (.literal rfl) .noKeys fun hne => absurd rfl hne
    have hkey (us : List Token) :
        Reads (.expression (.literal (quotedToken s))) (quotedToken s :: us) us :=
      (Reads.ofBelow ((hliteral us).below_of_atomic .logical)).expression_of_tier
    exact .key rfl rfl (hkey _) ih

theorem parse_keys (path : String) (segs : List String) :
    parse none (pathToken path :: keyTokens segs) =
      .ok (.ofIndex (.reference (pathToken path)) (keyTerms segs)) := by
  have hkeys := reads_keys segs []
  rw [List.append_nil] at hkeys
  have hatomic : Reads (.atomic (.ofIndex (.reference (pathToken path)) (keyTerms segs)))
      (pathToken path :: keyTokens segs) [] := .atomic (.reference rfl) hkeys fun _ => rfl
  have hbelow := hatomic.below_of_atomic .logical
  exact parse_eq_ok_iff.mpr (Reads.ofBelow hbelow).expression_of_tier

end Grammar

namespace Term

open Grammar

variable (functions : Registry Body) (vars : Value)

theorem path_pathToken (p : String) : path (pathToken p) = p := by
  have hchars : (pathToken p).text.toList = '\x7b' :: (p.toList ++ ['\x7d']) := by
    simp [pathToken, braced, String.toList_append]
  rw [path, Token.inner, hchars, List.drop_one, List.tail_cons, List.dropLast_concat,
    String.ofList_toList]

theorem literal_quotedToken (s : String) : Eval.literal (quotedToken s) = .string s := by
  have hchars : (quotedToken s).text.toList = '\'' :: (s.toList ++ ['\'']) := by
    simp [quotedToken, String.toList_append]
  show Value.string (quotedToken s).inner = .string s
  rw [Token.inner, hchars, List.drop_one, List.tail_cons, List.dropLast_concat,
    String.ofList_toList]

theorem evalKeys_names (v : Value) (segs : List String) :
    evalKeys (functions.scope vars) v (keyTerms segs) =
      pure (segs.foldl (fun v s => v.index (.string s)) v) := by
  induction segs generalizing v with
  | nil => rw [keyTerms, List.map_nil, evalKeys, List.foldl_nil]
  | cons s segs ih =>
    rw [keyTerms, List.map_cons, evalKeys, evalIn, pure_bind, literal_quotedToken, ← keyTerms, ih,
      List.foldl_cons]

/-- The value of a reference with keys behind it. -/
theorem eval_keys (p : String) (segs : List String) :
    (ofIndex (.reference (pathToken p)) (keyTerms segs)).eval functions vars =
      .ok (segs.foldl (fun v s => v.index (.string s)) (vars.atPath p)) := by
  have hbase : evalIn (functions.scope vars) (.reference (pathToken p)) =
      pure (vars.atPath p) := by
    rw [evalIn, lookup_scope, path_pathToken]
  cases segs with
  | nil =>
    show ((Term.reference (pathToken p)).evalIn (functions.scope vars)).run = _
    rw [hbase]
    rfl
  | cons s segs =>
    show ((Term.index (.reference (pathToken p)) (keyTerms (s :: segs))).evalIn
      (functions.scope vars)).run = _
    rw [evalIn, hbase, pure_bind, evalKeys_names]
    rfl

end Term

/-! ## Formulas -/

/-- Names with points between them are a path. -/
theorem Lexer.inPath_joined {p : String} {segs : List String} (hne : p ≠ "")
    (hpath : ∀ c ∈ p.toList, inPath c = true)
    (hnames : ∀ s ∈ segs, ∀ c ∈ s.toList, inPlainName c = true) :
    Text.joined "." (p :: segs) ≠ "" ∧
      ∀ c ∈ (Text.joined "." (p :: segs)).toList, inPath c = true := by
  induction segs generalizing p with
  | nil => exact ⟨hne, hpath⟩
  | cons s segs ih =>
    obtain ⟨hs, hnames⟩ := List.forall_mem_cons.mp hnames
    have hchars : (p ++ "." ++ s).toList = p.toList ++ '.' :: s.toList := by
      simp [String.toList_append]
    rw [Text.joined_cons_cons]
    refine ih (fun hempty => ?_) ?_ hnames
    · rw [← String.toList_inj, hchars] at hempty
      exact List.append_ne_nil_of_right_ne_nil _ (List.cons_ne_nil _ _) hempty
    · rw [hchars, List.forall_mem_append, List.forall_mem_cons]
      exact ⟨hpath, rfl, fun c hc => inPath_of_inPlainName (hs c hc)⟩

section

variable (functions : Registry Body) {options : Options} (hlength : options.maxLength = none)
  (hdepth : options.maxDepth = none) (vars : Value) {p : String} {segs : List String} (hne : p ≠ "")
  (hpath : ∀ c ∈ p.toList, Lexer.inPath c = true)
  (hnames : ∀ s ∈ segs, ∀ c ∈ s.toList, Lexer.inPlainName c = true)

include hlength hdepth hne hpath

/-- The value of a reference is what its path leads to. -/
theorem eval_reference : eval functions options vars (braced p) = .ok (vars.atPath p) := by
  have hspells := @Lexer.spells_keys p [] hne hpath nofun
  rw [List.map_nil, String.join_nil, String.append_empty] at hspells
  exact hspells.eval_ok hlength hdepth (Grammar.parse_keys p []) (Term.eval_keys ..)

include hnames

/-- Keys behind a reference lead on from there, one by one. -/
theorem eval_keys : eval functions options vars (braced p ++ String.join (segs.map bracketed)) =
    .ok (segs.foldl (fun v s => v.index (.string s)) (vars.atPath p)) :=
  (Lexer.spells_keys hne hpath hnames).eval_ok hlength hdepth (Grammar.parse_keys p segs)
    (Term.eval_keys ..)

/-- A path of two paths is followed along the one and then along the other; and a reference to a
path has the value of a reference to its front with the other names behind it as keys, where these
suit the values that are reached. -/
theorem dotted_chained (hsuits : ∀ (i : Nat) (hi : i < segs.length),
      (vars.atPath (Text.joined "." (p :: segs.take i))).Suits segs[i]) :
    (∀ (v : Value) (q q' : String),
        v.atPath? (q ++ "." ++ q') = (v.atPath? q).bind (·.atPath? q')) ∧
      eval functions options vars (braced (Text.joined "." (p :: segs))) =
        .ok (vars.atPath (Text.joined "." (p :: segs))) ∧
      eval functions options vars (braced p ++ String.join (segs.map bracketed)) =
        .ok (vars.atPath (Text.joined "." (p :: segs))) := by
  obtain ⟨hjoined, hchars⟩ := Lexer.inPath_joined hne hpath hnames
  refine ⟨Value.atPath?_append, eval_reference functions hlength hdepth vars hjoined hchars, ?_⟩
  rw [eval_keys functions hlength hdepth vars hne hpath hnames, Value.foldl_index hnames hsuits]

end

/-- A leading zero in an index, and a field behind it. -/
theorem dotted_chained_zero :
    let vars : Value := .object [("a", .array [.number 7, .object [("b_1", .boolean true)]])]
    eval Library.bodies {} vars "\x7ba.01.b_1\x7d" = .ok (.boolean true) ∧
      eval Library.bodies {} vars "\x7ba\x7d['01']['b_1']" = .ok (.boolean true) := by
  intro vars
  have hdotted : braced (Text.joined "." ["a", "01", "b_1"]) = "\x7ba.01.b_1\x7d" := by cbv
  have hchained : braced "a" ++ String.join (["01", "b_1"].map bracketed) =
      "\x7ba\x7d['01']['b_1']" := by cbv
  have hvalue : vars.atPath (Text.joined "." ["a", "01", "b_1"]) = .boolean true := by cbv
  have hsuits : ∀ (i : Nat) (hi : i < ["01", "b_1"].length),
      (vars.atPath (Text.joined "." ("a" :: ["01", "b_1"].take i))).Suits ["01", "b_1"][i] := by
    have hfirst : vars.atPath "a" = .array [.number 7, .object [("b_1", .boolean true)]] := by cbv
    have hsecond : vars.atPath "a.01" = .object [("b_1", .boolean true)] := by cbv
    intro i hi
    have hcases : i = 0 ∨ i = 1 := by
      rw [List.length_cons, List.length_singleton] at hi
      omega
    rcases hcases with rfl | rfl
    · show (vars.atPath "a").Suits "01"
      rw [hfirst]
      exact ⟨by decide, by decide⟩
    · show (vars.atPath "a.01").Suits "b_1"
      rw [hsecond]
      trivial
  have hnames : ∀ s ∈ ["01", "b_1"], ∀ c ∈ s.toList, Lexer.inPlainName c = true :=
    List.forall_mem_cons.mpr ⟨List.all_eq_true.mp (by decide),
      List.forall_mem_singleton.mpr (List.all_eq_true.mp (by decide))⟩
  have hlength : ({} : Options).maxLength = none := rfl
  obtain ⟨-, hreference, hkeys⟩ := dotted_chained Library.bodies hlength rfl vars (by decide)
    (List.all_eq_true.mp (by decide)) hnames hsuits
  rw [hvalue, hdotted] at hreference
  rw [hvalue, hchained] at hkeys
  exact ⟨hreference, hkeys⟩

/-- The empty name is the item at 0 as a key, and no item in a path. -/
theorem dotted_chained_empty :
    let vars : Value := .object [("a", .array [.number 7])]
    vars.atPath "a" = .array [.number 7] ∧
      eval Library.bodies {} vars (braced (Text.joined "." ["a", ""])) = .ok .undefined ∧
      eval Library.bodies {} vars (braced "a" ++ String.join ([""].map bracketed)) =
        .ok (.number 7) := by
  intro vars
  have hvalue : vars.atPath "a" = .array [.number 7] := by cbv
  have hposition : (Value.string "").position? = some 0 := by decide +kernel
  refine ⟨hvalue, by cbv, ?_⟩
  rw [eval_keys Library.bodies rfl rfl vars (by decide) (List.all_eq_true.mp (by decide))
    (List.forall_mem_singleton.mpr (List.all_eq_true.mp (by decide))), hvalue]
  show Except.ok ((Value.array [.number 7]).index (.string "")) = _
  rw [Value.index, hposition]
  rfl

end Formula
