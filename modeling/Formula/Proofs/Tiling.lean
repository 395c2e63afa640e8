import Mathlib
import Formula.Proofs.Languages

/-!
The lexemes of a formula tile it: put in order with the white space in front of each and behind the
last, they are the formula.

* `Cut.tiled`: what is cut into lexemes is tiled by them;
* `Cut.found`: each of them is what the lexer finds at its place, so that its text stands there, is
  in the language of its kind, and is the longest spelling if it is an operator;
* `scan_tiles`: this together, for every formula.
-/

namespace Formula

open Formula.Text

namespace Lexeme

def text : Lexeme → String
  | .token t => t.text
  | .stray e => String.singleton e.char

def offset : Lexeme → Nat
  | .token t => t.offset
  | .stray e => e.offset

def stop (x : Lexeme) : Nat := x.offset + x.text.utf8ByteSize

end Lexeme

def IsBlank (s : String) : Prop := ∀ c ∈ s.toList, isBlank c = true

/-- `StandsAt formula offset s`: behind the first `offset` bytes of the formula, which end with a
character, the text `s` stands. -/
def StandsAt (formula : String) (offset : Nat) (s : String) : Prop :=
  ∃ before after, formula = before ++ s ++ after ∧ before.utf8ByteSize = offset

theorem StandsAt.le {formula s : String} {offset : Nat} (h : StandsAt formula offset s) :
    offset + s.utf8ByteSize ≤ formula.utf8ByteSize := by
  obtain ⟨before, after, rfl, rfl⟩ := h
  simp only [String.utf8ByteSize_append]
  omega

namespace Lexer

/-- Lexemes, each with the white space in front of it, one after another. -/
def laid : List (String × Lexeme) → String
  | [] => ""
  | (gap, x) :: pieces => gap ++ (x.text ++ laid pieces)

/-- Each lexeme begins behind the white space in front of it, takes a byte at least, and ends where
the next piece begins. -/
def Placed : Nat → List (String × Lexeme) → Prop
  | _, [] => True
  | offset, (gap, x) :: pieces =>
    x.offset = offset + gap.utf8ByteSize ∧ 0 < x.text.utf8ByteSize ∧ Placed x.stop pieces

theorem bytes_eq (cs : List Char) : bytes cs = (String.ofList cs).utf8ByteSize := by
  induction cs with
  | nil => rfl
  | cons c cs ih =>
    rw [bytes, ih, String.ofList_cons, String.utf8ByteSize_append, String.utf8ByteSize_singleton]

/-- `Tiled offset s found`: the text `s`, which begins at `offset`, is the lexemes `found` in order,
with white space in front of each and behind the last. -/
def Tiled (offset : Nat) (s : String) (found : List Lexeme) : Prop :=
  ∃ pieces tail, pieces.map Prod.snd = found ∧ (∀ p ∈ pieces, IsBlank p.1) ∧ IsBlank tail ∧
    s = laid pieces ++ tail ∧ Placed offset pieces

/-- White space in front of what is tiled belongs to its first piece, or to what follows when there
is none. -/
theorem Tiled.cons_blank {offset : Nat} {c : Char} {s : String} {found : List Lexeme}
    (hc : isBlank c = true) (h : Tiled (offset + c.utf8Size) s found) :
    Tiled offset (String.singleton c ++ s) found := by
  obtain ⟨pieces, tail, rfl, hgaps, htail, rfl, hplaced⟩ := h
  have hblank : ∀ gap, IsBlank gap → IsBlank (String.singleton c ++ gap) := by
    intro gap hgap d hd
    rw [String.toList_append, String.toList_singleton] at hd
    rcases List.mem_cons.mp hd with rfl | hd
    · exact hc
    · exact hgap d hd
  cases pieces with
  | nil =>
    refine ⟨[], String.singleton c ++ tail, rfl, nofun, hblank _ htail, ?_, trivial⟩
    simp only [laid, String.empty_append]
  | cons p pieces =>
    obtain ⟨gap, x⟩ := p
    obtain ⟨hgap, hgaps⟩ := List.forall_mem_cons.mp hgaps
    obtain ⟨hx, hpos, hplaced⟩ := hplaced
    refine ⟨(String.singleton c ++ gap, x) :: pieces, tail, rfl, ?_, htail, ?_, ?_⟩
    · exact List.forall_mem_cons.mpr ⟨hblank gap hgap, hgaps⟩
    · simp only [laid, String.append_assoc]
    · refine ⟨?_, hpos, hplaced⟩
      rw [hx, String.utf8ByteSize_append, String.utf8ByteSize_singleton, Nat.add_assoc]

/-- A lexeme in front of what is tiled. -/
theorem Tiled.cons {x : Lexeme} {s : String} {found : List Lexeme}
    (hpos : 0 < x.text.utf8ByteSize) (h : Tiled x.stop s found) :
    Tiled x.offset (x.text ++ s) (x :: found) := by
  obtain ⟨pieces, tail, rfl, hgaps, htail, rfl, hplaced⟩ := h
  refine ⟨("", x) :: pieces, tail, rfl, ?_, htail, ?_, rfl, hpos, hplaced⟩
  · exact List.forall_mem_cons.mpr ⟨nofun, hgaps⟩
  · simp only [laid, String.empty_append, String.append_assoc]

/-- What is cut into lexemes is tiled by them. -/
theorem Cut.tiled {offset : Nat} {cs : List Char} {found : List Lexeme} (h : Cut offset cs found) :
    Tiled offset (String.ofList cs) found := by
  induction h with
  | done => exact ⟨[], "", rfl, nofun, nofun, rfl, trivial⟩
  | blank hb _ ih =>
    rw [String.ofList_cons]
    exact ih.cons_blank hb
  | @token offset kind c text cs found _ _ _ ih =>
    have hsize : 0 < (String.ofList (c :: text)).utf8ByteSize := by
      have hc := c.utf8Size_pos
      rw [← bytes_eq, bytes]
      omega
    rw [bytes_eq] at ih
    rw [String.ofList_append]
    exact Tiled.cons (x := .token ⟨kind, String.ofList (c :: text), offset⟩) hsize ih
  | @stray offset c cs found _ _ _ ih =>
    have hsize : (String.singleton c).utf8ByteSize = c.utf8Size := String.utf8ByteSize_singleton
    rw [← hsize] at ih
    rw [String.ofList_cons]
    refine Tiled.cons (x := .stray ⟨c, offset⟩) ?_ ih
    show 0 < (String.singleton c).utf8ByteSize
    rw [hsize]
    exact c.utf8Size_pos

/-- Lexemes that are placed begin behind what is in front of them all, none is empty, and each ends
where the next one begins at the latest. -/
theorem Placed.ordered {offset : Nat} {pieces : List (String × Lexeme)} (h : Placed offset pieces) :
    (∀ x ∈ pieces.map Prod.snd, offset ≤ x.offset ∧ x.offset < x.stop) ∧
      (pieces.map Prod.snd).Pairwise fun x y => x.stop ≤ y.offset := by
  induction pieces generalizing offset with
  | nil => exact ⟨nofun, .nil⟩
  | cons p pieces ih =>
    obtain ⟨gap, x⟩ := p
    obtain ⟨hx, hpos, hrest⟩ := h
    obtain ⟨hlater, hpairs⟩ := ih hrest
    have hstop : x.stop = x.offset + x.text.utf8ByteSize := rfl
    rw [List.map_cons]
    refine ⟨List.forall_mem_cons.mpr ⟨⟨?_, ?_⟩, ?_⟩, List.pairwise_cons.mpr ⟨?_, hpairs⟩⟩
    · show offset ≤ x.offset
      omega
    · show x.offset < x.stop
      omega
    · intro y hy
      have := hlater y hy
      omega
    · exact fun y hy => (hlater y hy).1

/-! ## Where a lexeme was found -/

/-- `Found offset cs x`: the lexeme `x` is what the lexer finds at its place in the characters `cs`,
which begin at `offset`. -/
def Found (offset : Nat) (cs : List Char) (x : Lexeme) : Prop :=
  ∃ before rest, cs = before ++ (x.text.toList ++ rest) ∧ x.offset = offset + bytes before ∧
    token (x.text.toList ++ rest) = (token? x).map fun t => (t.kind, t.text.toList.length)

theorem found_token {offset : Nat} {cs : List Char} {t : Token} :
    Found offset cs (.token t) ↔
      ∃ before rest, cs = before ++ (t.text.toList ++ rest) ∧ t.offset = offset + bytes before ∧
        token (t.text.toList ++ rest) = some (t.kind, t.text.toList.length) :=
  Iff.rfl

theorem bytes_append (cs ds : List Char) : bytes (cs ++ ds) = bytes cs + bytes ds := by
  induction cs with
  | nil => rw [List.nil_append, bytes, Nat.zero_add]
  | cons c cs ih => rw [List.cons_append, bytes, bytes, ih, Nat.add_assoc]

theorem Found.behind {offset : Nat} {cs : List Char} {x : Lexeme} (front : List Char)
    (h : Found (offset + bytes front) cs x) : Found offset (front ++ cs) x := by
  obtain ⟨before, rest, rfl, hx, ht⟩ := h
  refine ⟨front ++ before, rest, ?_, ?_, ht⟩
  · rw [List.append_assoc]
  · rw [hx, bytes_append, Nat.add_assoc]

/-- The lexemes of a cut are what the lexer finds at their places. -/
theorem Cut.found {offset : Nat} {cs : List Char} {found : List Lexeme} (h : Cut offset cs found) :
    ∀ x ∈ found, Found offset cs x := by
  induction h with
  | done => nofun
  | @blank offset c cs found _ _ ih => exact fun x hx => (ih x hx).behind [c]
  | @token offset kind c text cs found _ ht _ ih =>
    rw [List.forall_mem_cons]
    constructor
    · refine ⟨[], cs, ?_, rfl, ?_⟩
      · simp only [Lexeme.text, String.toList_ofList, List.nil_append]
      · simp only [Lexeme.text, String.toList_ofList, token?, Option.map_some]
        exact ht
    · exact fun x hx => (ih x hx).behind (c :: text)
  | @stray offset c cs found _ ht _ ih =>
    rw [List.forall_mem_cons]
    constructor
    · refine ⟨[], cs, ?_, rfl, ?_⟩
      · simp only [Lexeme.text, String.toList_singleton, List.nil_append, List.cons_append]
      · simp only [Lexeme.text, String.toList_singleton, token?, Option.map_none]
        exact ht
    · exact fun x hx => (ih x hx).behind [c]

/-- Characters that begin the same characters and have as many bytes are the same. -/
theorem eq_of_bytes_eq {as bs cs ds : List Char} (h : as ++ cs = bs ++ ds)
    (hb : bytes as = bytes bs) : as = bs ∧ cs = ds := by
  induction as generalizing bs with
  | nil =>
    cases bs with
    | nil => exact ⟨rfl, h⟩
    | cons b bs =>
      have := b.utf8Size_pos
      simp only [bytes] at hb
      omega
  | cons a as ih =>
    cases bs with
    | nil =>
      have := a.utf8Size_pos
      simp only [bytes] at hb
      omega
    | cons b bs =>
      simp only [List.cons_append, List.cons.injEq] at h
      obtain ⟨rfl, h⟩ := h
      simp only [bytes, Nat.add_left_cancel_iff] at hb
      obtain ⟨rfl, rfl⟩ := ih h hb
      exact ⟨rfl, rfl⟩

theorem Found.standsAt {formula : String} {x : Lexeme} (h : Found 0 formula.toList x) :
    StandsAt formula x.offset x.text := by
  obtain ⟨before, rest, hcs, hx, -⟩ := h
  refine ⟨String.ofList before, String.ofList rest, ?_, ?_⟩
  · apply String.toList_inj.mp
    simp only [String.toList_append, String.toList_ofList, List.append_assoc]
    exact hcs
  · rw [← bytes_eq, hx, Nat.zero_add]

/-- Every token is in the language of its kind. -/
theorem Found.language {offset : Nat} {cs : List Char} {t : Token}
    (h : Found offset cs (.token t)) : t.kind.Language t.text.toList := by
  obtain ⟨before, rest, -, -, ht⟩ := found_token.mp h
  have hl := token_language ht
  rw [List.take_left] at hl
  exact hl

/-- Where an operator was found, no longer spelling of an operator stands. -/
theorem Found.longest {formula : String} {t : Token} {o other : Operator}
    (h : Found 0 formula.toList (.token t)) (ho : t.kind = .operator o)
    (hother : StandsAt formula t.offset other.symbol) : other.symbol.length ≤ t.text.length := by
  obtain ⟨before, rest, hcs, hx, ht⟩ := found_token.mp h
  obtain ⟨before', after, rfl, hbefore⟩ := hother
  have hsame : before'.toList ++ (other.symbol.toList ++ after.toList) =
      before ++ (t.text.toList ++ rest) := by
    rw [← hcs, String.toList_append, String.toList_append, List.append_assoc]
  have hbytes : bytes before'.toList = bytes before := by
    rw [bytes_eq, String.ofList_toList, hbefore, hx, Nat.zero_add]
  obtain ⟨-, hhere⟩ := eq_of_bytes_eq hsame hbytes
  have hprefix : other.symbol.toList <+: t.text.toList ++ rest := ⟨after.toList, hhere⟩
  rw [ho] at ht
  exact operator_longest ht hprefix

/-! ## Whole formulas -/

theorem scan_found (formula : String) : ∀ x ∈ scan formula, Found 0 formula.toList x :=
  (scan_cut formula).found

theorem mem_tokens {formula : String} {t : Token} :
    t ∈ tokens formula ↔ .token t ∈ scan formula := by
  rw [tokens, List.mem_filterMap]
  constructor
  · rintro ⟨x, hx, hxt⟩
    cases x with
    | token u =>
      cases hxt
      exact hx
    | stray e => cases hxt
  · exact fun h => ⟨_, h, rfl⟩

theorem mem_lexErrors {formula : String} {e : LexError} :
    e ∈ lexErrors formula ↔ .stray e ∈ scan formula := by
  rw [lexErrors, List.mem_filterMap]
  constructor
  · rintro ⟨x, hx, hxe⟩
    cases x with
    | token u => cases hxe
    | stray e' =>
      cases hxe
      exact hx
  · exact fun h => ⟨_, h, rfl⟩

/-- No lexeme is empty, and they follow each other without overlap. -/
theorem scan_ordered (formula : String) :
    (∀ x ∈ scan formula, x.offset < x.stop) ∧
      (scan formula).Pairwise fun x y => x.offset < y.offset ∧ x.stop ≤ y.offset := by
  obtain ⟨pieces, tail, hfound, -, -, -, hplaced⟩ := (scan_cut formula).tiled
  obtain ⟨hpos, hpairs⟩ := hplaced.ordered
  rw [hfound] at hpos hpairs
  refine ⟨fun x hx => (hpos x hx).2, hpairs.imp_of_mem ?_⟩
  intro x y hx _ hxy
  have := (hpos x hx).2
  constructor <;> omega

/-- The tokens of a formula are in the order of their offsets, which tell them apart. -/
theorem tokens_ordered (formula : String) :
    (tokens formula).Pairwise fun t u => t.offset < u.offset := by
  refine List.pairwise_filterMap.mpr ((scan_ordered formula).2.imp ?_)
  intro x y hxy t ht u hu
  cases x with
  | stray e => cases ht
  | token x =>
    cases y with
    | stray e => cases hu
    | token y =>
      cases ht
      cases hu
      exact hxy.1

theorem tokens_nodup (formula : String) : (tokens formula).Nodup := by
  refine (tokens_ordered formula).imp ?_
  intro t u hlt heq
  rw [heq] at hlt
  exact absurd hlt (Nat.lt_irrefl _)

/-- A formula is its lexemes in order with white space in front of each and behind the last. They
follow each other, none is empty, and each stands at its offset. Every token is in the language of
its kind, and where an operator was found, no longer spelling of an operator stands. -/
theorem scan_tiles (formula : String) :
    Tiled 0 formula (scan formula) ∧
    (scan formula).Pairwise (fun x y => x.offset < y.offset ∧ x.stop ≤ y.offset) ∧
    (∀ x ∈ scan formula, x.text ≠ "" ∧ StandsAt formula x.offset x.text) ∧
    ∀ t ∈ tokens formula, t.kind.Language t.text.toList ∧
      ∀ o other : Operator, t.kind = .operator o → StandsAt formula t.offset other.symbol →
        other.symbol.length ≤ t.text.length := by
  have htiled := (scan_cut formula).tiled
  rw [String.ofList_toList] at htiled
  refine ⟨htiled, (scan_ordered formula).2, ?_, ?_⟩
  · intro x hx
    refine ⟨?_, (scan_found formula x hx).standsAt⟩
    intro hempty
    have hpos := (scan_ordered formula).1 x hx
    rw [Lexeme.stop, hempty] at hpos
    exact absurd hpos (Nat.lt_irrefl _)
  · intro t ht
    have hfound := scan_found formula _ (mem_tokens.mp ht)
    exact ⟨hfound.language, fun o other ho hother => hfound.longest ho hother⟩

/-- The string takes two bytes more than it has characters, and of the operators that begin with an
exclamation mark the longest was found. -/
theorem scan_tiles_accent :
    ⟨.operator .strictNotEqual, "!==", 6⟩ ∈ tokens " 'é' !==1#" ∧
      StandsAt " 'é' !==1#" 6 "!==" ∧ Operator.not.symbol.length ≤ "!==".length ∧
      (LiteralKind.string).Language "'é'".toList := by
  have htokens : tokens " 'é' !==1#" =
      [⟨.literal .string, "'é'", 1⟩, ⟨.operator .strictNotEqual, "!==", 6⟩,
        ⟨.literal .number, "1", 9⟩] := by cbv
  obtain ⟨-, -, hstands, hlanguage⟩ := scan_tiles " 'é' !==1#"
  have hstring : (⟨.literal .string, "'é'", 1⟩ : Token) ∈ tokens " 'é' !==1#" := by
    rw [htokens]
    exact .head _
  have hoperator : (⟨.operator .strictNotEqual, "!==", 6⟩ : Token) ∈ tokens " 'é' !==1#" := by
    rw [htokens]
    exact .tail _ (.head _)
  have hnot : StandsAt " 'é' !==1#" 6 Operator.not.symbol := ⟨" 'é' ", "==1#", by decide, by decide⟩
  refine ⟨hoperator, ?_, ?_, (hlanguage _ hstring).1⟩
  · exact (hstands _ (mem_tokens.mp hoperator)).2
  · exact (hlanguage _ hoperator).2 _ .not rfl hnot

end Lexer

end Formula
