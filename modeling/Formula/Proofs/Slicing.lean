import Mathlib
import Formula.Proofs.Differences
import Formula.Proofs.Paths
import Formula.Proofs.Registry

/-!
The functions that cut texts cut at the same places.

* `count_number` and `count_rest`: what whole numbers count, and what is left of a length;
* `slices`: the characters in front of a place, some from there on and those behind them are the
  text;
* `left_number`, `middle_number`, `right_of_count` and `replace_number`: the functions give these
  pieces, also where counts are cut off at the largest one;
* `Yields`: the value of a term, put together from those of its parts;
* `cut_alike`: hence the laws of `LEFT`, `MID`, `RIGHT`, `REPLACE` and `CONCATENATE`.
-/

namespace Formula

open Number

namespace Library

/-! ## Counts -/

def maxCount : Nat := 2 ^ 64 - 1

/-- An integer counts itself, and nothing if it is negative. -/
theorem count_integer {x : Float} {n : Int} (hx : value? x = some (n : ℚ)) (default : Nat) :
    count (.number x) default = min n.toNat maxCount := by
  have hcount : count (.number x) default = (clamped 0 (2 ^ 64 - 1) x).toNat := rfl
  have hmax : ((maxCount : Nat) : Int) = 2 ^ 64 - 1 := rfl
  rw [hcount, clamped_eq hx]
  omega

theorem count_number {x : Float} {n : Nat} (hx : value? x = some (n : ℚ)) (default : Nat) :
    count (.number x) default = min n maxCount :=
  count_integer (n := (n : Int)) (by rw [hx, Int.cast_natCast]) default

/-- A length less two numbers, in doubles. -/
theorem count_rest {x y z : Float} {n i k : Nat} (hz : value? z = some (n : ℚ))
    (hx : value? x = some (i : ℚ)) (hy : value? y = some (k : ℚ)) (hlt : n < 2 ^ 53)
    (default : Nat) : count (.number (subtract (subtract z x) y)) default = n - i - k := by
  have hcount : count (.number (subtract (subtract z x) y)) default =
      (clamped 0 (2 ^ 64 - 1) (subtract (subtract z x) y)).toNat := rfl
  rw [hcount, clamped_subtract hz hx hy hlt (by decide), Int.toNat_natCast]

/-! ## Pieces -/

def behind (s : String) (start : Nat) : String := String.ofList (s.toList.drop start)

theorem slices (s : String) (i k : Nat) : slice s 0 i ++ slice s i k ++ behind s (i + k) = s := by
  rw [slice, slice, behind, List.drop_zero, ← List.drop_drop, ← String.ofList_append,
    ← String.ofList_append, List.append_assoc, List.take_append_drop, List.take_append_drop,
    String.ofList_toList]

section

variable {s : String} (hlength : s.length ≤ maxCount)

include hlength

/-- No place of a text is behind the largest count. -/
theorem drop_count (n : Nat) : s.toList.drop (min n maxCount) = s.toList.drop n := by
  rw [List.drop_eq_drop_iff, String.length_toList]
  omega

theorem slice_count (i k : Nat) : slice s (min i maxCount) (min k maxCount) = slice s i k := by
  have htake : (s.toList.drop i).take (min k maxCount) = (s.toList.drop i).take k := by
    rw [List.take_eq_take_iff, List.length_drop, String.length_toList]
    omega
  rw [slice, slice, drop_count hlength, htake]

variable {x y : Float} {i k : Nat} (hx : value? x = some (i : ℚ)) (hy : value? y = some (k : ℚ))

include hx

theorem left_number : left [.string s, .number x] = .ok (.string (slice s 0 i)) := by
  have hleft : left [.string s, .number x] =
      .ok (.string (slice s 0 (count (.number x) 1))) := rfl
  rw [hleft, count_number hx, ← slice_count hlength 0 i, Nat.zero_min]

include hy

theorem middle_number :
    middle [.string s, .number x, .number y] = .ok (.string (slice s i k)) := by
  have hmiddle : middle [.string s, .number x, .number y] =
      .ok (.string (slice s (count (.number x) 0) (count (.number y) 0))) := rfl
  rw [hmiddle, count_number hx, count_number hy, slice_count hlength]

theorem replace_number (r : String) : replace [.string s, .number x, .number y, .string r] =
    .ok (.string (slice s 0 i ++ r ++ behind s (i + k))) := by
  have hreplace : replace [.string s, .number x, .number y, .string r] =
      .ok (.string (slice s 0 (count (.number x) 0) ++ r ++
        behind s (count (.number x) 0 + count (.number y) 0))) := rfl
  have hbehind : behind s (min i maxCount + min k maxCount) = behind s (i + k) := by
    rw [behind, behind, List.drop_eq_drop_iff.mpr]
    rw [String.length_toList]
    omega
  rw [hreplace, count_number hx, count_number hy, hbehind, ← slice_count hlength 0 i, Nat.zero_min]

end

/-- The last characters, counted from the end. -/
theorem right_of_count {s : String} {v : Value} {n : Nat} (h : count v 1 = s.length - n) :
    right [.string s, v] = .ok (.string (behind s n)) := by
  have hright : right [.string s, v] = .ok (.string (slice s
      (s.length - min (count v 1) s.length) (min (count v 1) s.length))) := rfl
  have hdrop : s.toList.drop (s.length - (s.length - n)) = s.toList.drop n := by
    rw [List.drop_eq_drop_iff, String.length_toList]
    omega
  have hall : (s.toList.drop n).length ≤ s.length - n := by
    rw [List.length_drop, String.length_toList]
  rw [hright, h, min_eq_left (Nat.sub_le ..), slice, hdrop, List.take_of_length_le hall, behind]

theorem concatenate_three (a b c : String) :
    concatenate [.string a, .string b, .string c] = .ok (.string (a ++ b ++ c)) := by
  have hconcatenate : concatenate [.string a, .string b, .string c] =
      .ok (.string (String.join [a, b, c])) := rfl
  rw [hconcatenate, String.join_cons, String.join_cons, String.join_cons, String.join_nil,
    String.append_empty, String.append_assoc]

end Library

/-! ## Values of terms -/

def Grammar.minus : Token := ⟨.operator .subtract, "-", 0⟩

namespace Term

def ref (path : String) : Term := .reference (Grammar.pathToken path)

def applied (name : String) (arguments : List Term) : Term :=
  .call ⟨.function, name, 0⟩ arguments

def lessTwo (head first second : Term) : Term :=
  .chain .additive head [(Grammar.minus, first), (Grammar.minus, second)]

section

variable {vars : Value} {t : Term} {v : Value}

def Yields (vars : Value) (t : Term) (v : Value) : Prop :=
  t.evalIn (Library.bodies.scope vars) = pure v

theorem yields_ref {path : String} (h : vars.atPath path = v) : Yields vars (ref path) v := by
  rw [Yields, ref, evalIn, lookup_scope, path_pathToken, h]

theorem yields_all {ts : List Term} {vs : List Value} (h : List.Forall₂ (Yields vars) ts vs) :
    evalAll (Library.bodies.scope vars) ts = pure vs := by
  induction h with
  | nil => rw [evalAll]
  | @cons t v ts vs hv _ ih =>
    rw [Yields] at hv
    simp only [evalAll, hv, ih, pure_bind]

theorem call?_scope (functions : Registry Body) (vars : Value) (name : Token) :
    (functions.scope vars).call? name = (functions.get? name.text).map Entry.action := rfl

theorem yields_applied {name : String} {ts : List Term} {vs : List Value} {body : Body}
    (hname : (Library.named? name).map Library.Function.body = some body)
    (h : List.Forall₂ (Yields vars) ts vs) (hv : body vs = .ok v) :
    Yields vars (applied name ts) v := by
  have hcall : (Library.bodies.scope vars).call? ⟨.function, name, 0⟩ = some body := by
    rw [call?_scope, Library.bodies_get?, Option.map_map]
    exact hname
  rw [Yields, applied, evalIn, hcall]
  simp only [yields_all h, pure_bind, hv]
  rfl

theorem yields_lessTwo {head first second : Term} {x y z a : Float}
    (hhead : Yields vars head (.number z)) (hfirst : Yields vars first (.number x))
    (hsecond : Yields vars second (.number y)) (hseed : (Value.number z).seed = .number a) :
    Yields vars (lessTwo head first second) (.number (subtract (subtract a x) y)) := by
  rw [Yields] at hhead hfirst hsecond ⊢
  have hminus (x y : Float) : (liftExcept (Eval.combine .additive Grammar.minus (.number x)
      (.number y)) : ExceptT EvalError Id Value) = pure (.number (subtract x y)) := rfl
  simp only [lessTwo, evalIn, evalLinks, hhead, hfirst, hsecond, pure_bind, Eval.start, hseed,
    hminus]

end

/-! ## The pieces of a text -/

/-- The text `s` and the replacement `r`, the place `i` and the length `k`. -/
structure Slices (vars : Value) (s r : String) (x y : Float) : Prop where
  text : vars.atPath "s" = .string s
  replacement : vars.atPath "r" = .string r
  start : vars.atPath "i" = .number x
  length : vars.atPath "k" = .number y

def inFront : Term := applied "LEFT" [ref "s", ref "i"]

def inside : Term := applied "MID" [ref "s", ref "i", ref "k"]

def atEnd : Term :=
  applied "RIGHT" [ref "s", lessTwo (applied "LEN" [ref "s"]) (ref "i") (ref "k")]

def joined (piece : Term) : Term := applied "CONCATENATE" [inFront, piece, atEnd]

def replaced (piece : Term) : Term := applied "REPLACE" [ref "s", ref "i", ref "k", piece]

section

variable {vars : Value} {s r : String} {x y : Float} {i k : Nat} (hvars : Slices vars s r x y)
  (hx : value? x = some (i : ℚ)) (hy : value? y = some (k : ℚ)) (hlength : s.length < 2 ^ 53)

include hvars hx hlength

theorem yields_inFront : Yields vars inFront (.string (Library.slice s 0 i)) :=
  yields_applied rfl (.cons (yields_ref hvars.text) (.cons (yields_ref hvars.start) .nil))
    (Library.left_number (by rw [Library.maxCount]; omega) hx)

include hy

theorem yields_inside : Yields vars inside (.string (Library.slice s i k)) :=
  yields_applied rfl (.cons (yields_ref hvars.text) (.cons (yields_ref hvars.start)
    (.cons (yields_ref hvars.length) .nil)))
    (Library.middle_number (by rw [Library.maxCount]; omega) hx hy)

theorem yields_atEnd : Yields vars atEnd (.string (Library.behind s (i + k))) := by
  have hlen : Yields vars (applied "LEN" [ref "s"]) (.number (Float.ofNat s.length)) :=
    yields_applied rfl (.cons (yields_ref hvars.text) .nil) rfl
  obtain ⟨a, hseed, hstart⟩ := seed_of_value (value_natCast hlength)
  have ha : value? a = some (s.length : ℚ) := by
    rcases hstart with rfl | ⟨rfl, hzero⟩
    · exact value_natCast hlength
    · rw [hzero]
      rfl
  have hcount := Library.count_rest ha hx hy hlength 1
  rw [Nat.sub_sub] at hcount
  exact yields_applied rfl (.cons (yields_ref hvars.text) (.cons (yields_lessTwo hlen
    (yields_ref hvars.start) (yields_ref hvars.length) hseed) .nil)) (Library.right_of_count hcount)

variable {t : Term} {piece : String} (ht : Yields vars t (.string piece))

include ht

theorem yields_joined : Yields vars (joined t)
    (.string (Library.slice s 0 i ++ piece ++ Library.behind s (i + k))) :=
  yields_applied rfl (.cons (yields_inFront hvars hx hlength) (.cons ht
    (.cons (yields_atEnd hvars hx hy hlength) .nil))) (Library.concatenate_three ..)

theorem yields_replaced : Yields vars (replaced t)
    (.string (Library.slice s 0 i ++ piece ++ Library.behind s (i + k))) :=
  yields_applied rfl (.cons (yields_ref hvars.text) (.cons (yields_ref hvars.start)
    (.cons (yields_ref hvars.length) (.cons ht .nil))))
    (Library.replace_number (by rw [Library.maxCount]; omega) hx hy piece)

end

end Term

/-! ## Formulas -/

/-- The formula consists of the tokens of a term, which is read from them. -/
def Writes (formula : String) (t : Term) : Prop :=
  Spells formula t.written ∧ parse none t.written = .ok t

theorem writes_joined_inside : Writes
    "CONCATENATE(LEFT({s}, {i}), MID({s}, {i}, {k}), RIGHT({s}, LEN({s}) - {i} - {k}))"
    (.joined .inside) :=
  ⟨⟨by cbv, by cbv⟩, by cbv⟩

theorem writes_joined_ref : Writes
    "CONCATENATE(LEFT({s}, {i}), {r}, RIGHT({s}, LEN({s}) - {i} - {k}))" (.joined (.ref "r")) :=
  ⟨⟨by cbv, by cbv⟩, by cbv⟩

theorem writes_replaced_inside :
    Writes "REPLACE({s}, {i}, {k}, MID({s}, {i}, {k}))" (.replaced .inside) :=
  ⟨⟨by cbv, by cbv⟩, by cbv⟩

theorem writes_replaced_ref : Writes "REPLACE({s}, {i}, {k}, {r})" (.replaced (.ref "r")) :=
  ⟨⟨by cbv, by cbv⟩, by cbv⟩

section

variable {options : Options} (hlength : options.maxLength = none) (hdepth : options.maxDepth = none)

include hlength hdepth

theorem Writes.eval {formula : String} {t : Term} {vars v : Value} (h : Writes formula t)
    (hv : t.Yields vars v) : Formula.eval Library.bodies options vars formula = .ok v :=
  h.1.eval_ok hlength hdepth h.2 hv

/-- A text is cut at the same places by all functions: behind a whole number of characters, behind
some more of them, and so many before its end as are left, which are none for a negative number. In
formulas the length is a double, which is exact below `2 ^ 53`. -/
theorem cut_alike {x y : Float} {i k : Nat} (hx : value? x = some (i : ℚ))
    (hy : value? y = some (k : ℚ)) (s r : String) :
    (s.length < 2 ^ 64 →
      Library.left [.string s, .number x] = .ok (.string (Library.slice s 0 i)) ∧
      Library.middle [.string s, .number x, .number y] = .ok (.string (Library.slice s i k)) ∧
      Library.replace [.string s, .number x, .number y, .string r] =
        .ok (.string (Library.slice s 0 i ++ r ++ Library.behind s (i + k))) ∧
      ∀ z : Float, value? z = some ((s.length - i - k : Int) : ℚ) →
        Library.right [.string s, .number z] = .ok (.string (Library.behind s (i + k)))) ∧
    ∀ vars : Value, Term.Slices vars s r x y → s.length < 2 ^ 53 →
      eval Library.bodies options vars
          "CONCATENATE(LEFT({s}, {i}), MID({s}, {i}, {k}), RIGHT({s}, LEN({s}) - {i} - {k}))" =
        .ok (.string s) ∧
      eval Library.bodies options vars "REPLACE({s}, {i}, {k}, {r})" =
        .ok (.string (Library.slice s 0 i ++ r ++ Library.behind s (i + k))) ∧
      eval Library.bodies options vars
          "CONCATENATE(LEFT({s}, {i}), {r}, RIGHT({s}, LEN({s}) - {i} - {k}))" =
        .ok (.string (Library.slice s 0 i ++ r ++ Library.behind s (i + k))) ∧
      eval Library.bodies options vars "REPLACE({s}, {i}, {k}, MID({s}, {i}, {k}))" =
        .ok (.string s) := by
  constructor
  · intro hfits
    have hcounts : s.length ≤ Library.maxCount := by
      rw [Library.maxCount]
      omega
    refine ⟨Library.left_number hcounts hx, Library.middle_number hcounts hx hy,
      Library.replace_number hcounts hx hy r, fun z hz => Library.right_of_count ?_⟩
    rw [Library.count_integer hz, Library.maxCount]
    omega
  · intro vars hvars hfew
    have hr := Term.yields_ref hvars.replacement
    have hinside := Term.yields_inside hvars hx hy hfew
    have hjoined := Term.yields_joined hvars hx hy hfew hinside
    have hreplaced := Term.yields_replaced hvars hx hy hfew hinside
    rw [Library.slices] at hjoined hreplaced
    exact ⟨writes_joined_inside.eval hlength hdepth hjoined,
      writes_replaced_ref.eval hlength hdepth (Term.yields_replaced hvars hx hy hfew hr),
      writes_joined_ref.eval hlength hdepth (Term.yields_joined hvars hx hy hfew hr),
      writes_replaced_inside.eval hlength hdepth hreplaced⟩

end

/-- More characters than there are, of more than one byte each. -/
theorem cut_alike_past_end :
    let vars : Value := .object
      [("i", .number 2), ("k", .number 5), ("r", .string "xy"), ("s", .string "é€a😀")]
    eval Library.bodies {} vars
        "CONCATENATE(LEFT({s}, {i}), MID({s}, {i}, {k}), RIGHT({s}, LEN({s}) - {i} - {k}))" =
      .ok (.string "é€a😀") ∧
      eval Library.bodies {} vars "REPLACE({s}, {i}, {k}, {r})" = .ok (.string "é€xy") ∧
      eval Library.bodies {} vars "REPLACE({s}, {i}, {k}, MID({s}, {i}, {k}))" =
        .ok (.string "é€a😀") := by
  intro vars
  have hx : value? 2 = some ((2 : Nat) : ℚ) := value_natCast (n := 2) (by decide)
  have hy : value? 5 = some ((5 : Nat) : ℚ) := value_natCast (n := 5) (by decide)
  have hvars : Term.Slices vars "é€a😀" "xy" 2 5 := ⟨by cbv, by cbv, by cbv, by cbv⟩
  have hfew : "é€a😀".length < 2 ^ 53 := by decide
  have hlength : ({} : Options).maxLength = none := rfl
  obtain ⟨-, hformulas⟩ := cut_alike hlength rfl hx hy "é€a😀" "xy"
  obtain ⟨hjoined, hreplaced, -, hsame⟩ := hformulas vars hvars hfew
  have htext : Library.slice "é€a😀" 0 2 ++ "xy" ++ Library.behind "é€a😀" (2 + 5) = "é€xy" := by
    decide
  rw [htext] at hreplaced
  exact ⟨hjoined, hreplaced, hsame⟩

end Formula
