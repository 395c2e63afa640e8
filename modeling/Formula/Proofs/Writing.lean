import Mathlib
import Formula.Proofs.Levels
import Formula.Proofs.Lexing

/-!
Writing a term out as tokens, with its brackets, parentheses and commas.

* `reads_written`: what is read from tokens can be read from the tokens it is written as;
* `reads_faces`: these have the kinds and texts of the tokens it was read from, without the commas
  at the ends of calls;
* `term_faithful`: hence nothing of a formula but white space, stray characters and such commas is
  missing from its term.
-/

namespace Formula

open Grammar

/-! ## Tokens without places -/

namespace Token

def face (t : Token) : TokenKind × String := (t.kind, t.text)

/-- The token of a kind that has only one spelling. -/
def delimiter (kind : TokenKind) : Token := ⟨kind, kind.spelling?.getD "", 0⟩

def unplaced (t : Token) : Token := { t with offset := 0 }

@[simp] theorem face_unplaced (t : Token) : t.unplaced.face = t.face := rfl

theorem face_delimiter {t : Token} {kind : TokenKind} {s : String} (ht : t.IsSpelled)
    (hk : t.kind = kind) (hs : kind.spelling? = some s) : (delimiter kind).face = t.face := by
  subst hk
  simp only [face, delimiter, hs, Option.getD_some, ht s hs]

end Token

/-- Tokens without the commas directly before a closing parenthesis. In a formula such a comma
stands behind the last argument of a call. -/
def withoutEndCommas : List Token → List Token
  | [] => []
  | t :: ts =>
    if t.kind = .comma && Parser.startsWith .closeParen ts then withoutEndCommas ts
    else t :: withoutEndCommas ts

/-- Every token but a comma is kept. -/
theorem faces_cons {t : Token} {kind : TokenKind} (ts : List Token) (hk : t.kind = kind)
    (hne : kind ≠ .comma) :
    (withoutEndCommas (t :: ts)).map Token.face =
      t.face :: (withoutEndCommas ts).map Token.face := by
  simp [withoutEndCommas, hk, hne]

/-- A delimiter is kept, and looks like every delimiter of its kind. -/
theorem faces_delimiter {t : Token} {kind : TokenKind} {s : String} (ts : List Token)
    (ht : t.IsSpelled) (hk : t.kind = kind) (hs : kind.spelling? = some s) (hne : kind ≠ .comma) :
    (withoutEndCommas (t :: ts)).map Token.face =
      (Token.delimiter kind).face :: (withoutEndCommas ts).map Token.face := by
  rw [faces_cons ts hk hne, Token.face_delimiter ht hk hs]

/-- A comma is kept where a term follows it. -/
theorem faces_comma {c : Token} {ts : List Token} (ht : c.IsSpelled) (hc : c.kind = .comma)
    (hnext : Parser.startsWith .closeParen ts = false) :
    (withoutEndCommas (c :: ts)).map Token.face =
      (Token.delimiter .comma).face :: (withoutEndCommas ts).map Token.face := by
  rw [Token.face_delimiter ht hc rfl]
  simp [withoutEndCommas, hnext]

theorem withoutEndCommas_comma {c r : Token} (ts : List Token) (hc : c.kind = .comma)
    (hr : r.kind = .closeParen) : withoutEndCommas (c :: r :: ts) = withoutEndCommas (r :: ts) := by
  simp [withoutEndCommas, Parser.startsWith, hc, hr]

/-! ## Terms as tokens -/

namespace Term

mutual

def written : Term → List Token
  | .literal t | .reference t => [t]
  | .array l elements => l :: (writtenList elements ++ [.delimiter .closeBracket])
  | .call name arguments =>
    name :: .delimiter .openParen :: (writtenList arguments ++ [.delimiter .closeParen])
  | .group inner => .delimiter .openParen :: (inner.written ++ [.delimiter .closeParen])
  | .unary .before x operand => x :: operand.written
  | .unary .after x operand => operand.written ++ [x]
  | .index base keys => base.written ++ writtenKeys keys
  | .chain _ head links => head.written ++ writtenLinks links
  | .sequence items => writtenList items

def writtenList : List Term → List Token
  | [] => []
  | t :: ts => t.written ++ writtenItems ts

/-- The tokens of terms, with a comma before each. -/
def writtenItems : List Term → List Token
  | [] => []
  | t :: ts => .delimiter .comma :: (t.written ++ writtenItems ts)

def writtenKeys : List Term → List Token
  | [] => []
  | k :: ks =>
    .delimiter .openBracket :: (k.written ++ .delimiter .closeBracket :: writtenKeys ks)

def writtenLinks : List (Token × Term) → List Token
  | [] => []
  | (x, t) :: links => x :: (t.written ++ writtenLinks links)

end

mutual

def mapTokens (f : Token → Token) : Term → Term
  | .literal t => .literal (f t)
  | .reference t => .reference (f t)
  | .array l elements => .array (f l) (mapAll f elements)
  | .call name arguments => .call (f name) (mapAll f arguments)
  | .group inner => .group (inner.mapTokens f)
  | .unary fixity x operand => .unary fixity (f x) (operand.mapTokens f)
  | .index base keys => .index (base.mapTokens f) (mapAll f keys)
  | .chain tier head links => .chain tier (head.mapTokens f) (mapLinks f links)
  | .sequence items => .sequence (mapAll f items)

def mapAll (f : Token → Token) : List Term → List Term
  | [] => []
  | t :: ts => t.mapTokens f :: mapAll f ts

def mapLinks (f : Token → Token) : List (Token × Term) → List (Token × Term)
  | [] => []
  | (x, t) :: links => (f x, t.mapTokens f) :: mapLinks f links

end

def unplaced (t : Term) : Term := t.mapTokens Token.unplaced

@[simp] theorem written_ofSequence (first : Term) (rest : List Term) :
    (ofSequence first rest).written = writtenList (first :: rest) := by
  cases rest <;> simp [ofSequence, written, writtenList, writtenItems]

@[simp] theorem written_ofChain (tier : Tier) (head : Term) (links : List (Token × Term)) :
    (ofChain tier head links).written = head.written ++ writtenLinks links := by
  cases links <;> simp [ofChain, written, writtenLinks]

@[simp] theorem written_ofIndex (base : Term) (keys : List Term) :
    (ofIndex base keys).written = base.written ++ writtenKeys keys := by
  cases keys <;> simp [ofIndex, written, writtenKeys]

mutual

/-- A term is written with the same kinds and texts when its tokens keep theirs. -/
theorem faces_mapTokens {f : Token → Token} (hf : ∀ t, (f t).face = t.face) (t : Term) :
    (t.mapTokens f).written.map Token.face = t.written.map Token.face := by
  cases t with
  | literal x => simp [mapTokens, written, hf]
  | reference x => simp [mapTokens, written, hf]
  | array l elements => simp [mapTokens, written, hf, facesList_mapAll hf elements]
  | call name arguments => simp [mapTokens, written, hf, facesList_mapAll hf arguments]
  | group inner => simp [mapTokens, written, faces_mapTokens hf inner]
  | unary fixity x operand =>
    cases fixity <;> simp [mapTokens, written, hf, faces_mapTokens hf operand]
  | index base keys => simp [mapTokens, written, faces_mapTokens hf base, facesKeys_mapAll hf keys]
  | chain tier head links =>
    simp [mapTokens, written, faces_mapTokens hf head, facesLinks_mapLinks hf links]
  | sequence items => simp [mapTokens, written, facesList_mapAll hf items]

theorem facesList_mapAll {f : Token → Token} (hf : ∀ t, (f t).face = t.face) (ts : List Term) :
    (writtenList (mapAll f ts)).map Token.face = (writtenList ts).map Token.face := by
  cases ts with
  | nil => rfl
  | cons t ts => simp [mapAll, writtenList, faces_mapTokens hf t, facesItems_mapAll hf ts]

theorem facesItems_mapAll {f : Token → Token} (hf : ∀ t, (f t).face = t.face) (ts : List Term) :
    (writtenItems (mapAll f ts)).map Token.face = (writtenItems ts).map Token.face := by
  cases ts with
  | nil => rfl
  | cons t ts => simp [mapAll, writtenItems, faces_mapTokens hf t, facesItems_mapAll hf ts]

theorem facesKeys_mapAll {f : Token → Token} (hf : ∀ t, (f t).face = t.face) (ks : List Term) :
    (writtenKeys (mapAll f ks)).map Token.face = (writtenKeys ks).map Token.face := by
  cases ks with
  | nil => rfl
  | cons k ks => simp [mapAll, writtenKeys, faces_mapTokens hf k, facesKeys_mapAll hf ks]

theorem facesLinks_mapLinks {f : Token → Token} (hf : ∀ t, (f t).face = t.face)
    (links : List (Token × Term)) :
    (writtenLinks (mapLinks f links)).map Token.face =
      (writtenLinks links).map Token.face := by
  cases links with
  | nil => rfl
  | cons link links =>
    obtain ⟨x, t⟩ := link
    simp [mapLinks, writtenLinks, hf, faces_mapTokens hf t, facesLinks_mapLinks hf links]

end

/-- Offsets do not show in the kinds and texts a term is written with. -/
theorem faces_unplaced (t : Term) :
    t.unplaced.written.map Token.face = t.written.map Token.face :=
  faces_mapTokens Token.face_unplaced t

end Term

namespace Grammar

open Term

def Phrase.written : Phrase → List Token
  | .expression t | .tier _ t | .atomic t | .primary t => t.written
  | .list ts => writtenList ts
  | .items ts => writtenItems ts
  | .links _ ls => writtenLinks ls
  | .keys ks => writtenKeys ks

@[simp] theorem Phrase.written_below (tier : Tier) (t : Term) :
    (Phrase.below tier t).written = t.written := by
  cases tier <;> rfl

/-! ## Reading what was written -/

/-- What is read from tokens can be read from the tokens it is written as, whatever follows. -/
theorem reads_written {p : Phrase} {ts us : List Token} (h : Reads p ts us) (vs : List Token) :
    Reads p (p.written ++ vs) vs := by
  induction h generalizing vs with
  | expression _ ih =>
    rw [Phrase.written, written_ofSequence]
    exact .expression (ih vs)
  | list _ _ ih ih' =>
    rw [Phrase.written, writtenList, List.append_assoc]
    exact .list (ih _) (ih' vs)
  | noItems => exact .noItems
  | item _ _ _ ih ih' =>
    rw [Phrase.written, writtenItems, List.cons_append, List.append_assoc]
    exact .item rfl (ih _) (ih' vs)
  | tier _ _ ih ih' =>
    rw [Phrase.written, written_ofChain, List.append_assoc]
    refine .tier ?_ (ih' vs)
    rw [Phrase.written_below] at ih
    exact ih _
  | noLinks => exact .noLinks
  | link hx ho _ _ ih ih' =>
    rw [Phrase.written, writtenLinks, List.cons_append, List.append_assoc]
    refine .link hx ho ?_ (ih' vs)
    rw [Phrase.written_below] at ih
    exact ih _
  | atomic _ _ hm ih ih' =>
    rw [Phrase.written, written_ofIndex, List.append_assoc]
    exact .atomic (ih _) (ih' vs) hm
  | postfixed _ _ hm hx ho ih ih' =>
    rw [Phrase.written, written, written_ofIndex, List.append_assoc, List.append_assoc]
    exact .postfixed (ih _) (ih' _) hm hx ho
  | noKeys => exact .noKeys
  | key _ _ _ _ ih ih' =>
    rw [Phrase.written, writtenKeys, List.cons_append, List.append_assoc]
    exact .key rfl rfl (ih _) (ih' vs)
  | literal hx => exact .literal hx
  | reference hx => exact .reference hx
  | emptyArray hl _ => exact .emptyArray hl rfl
  | array hl _ _ ih =>
    rw [Phrase.written, written, List.cons_append, List.append_assoc]
    exact .array hl rfl (ih _)
  | emptyCall hn _ _ => exact .emptyCall hn rfl rfl
  | call hn _ _ _ ih =>
    rw [Phrase.written, written, List.cons_append, List.cons_append, List.append_assoc]
    exact .call hn rfl rfl (ih _)
  | callWithComma hn _ _ _ _ ih =>
    rw [Phrase.written, written, List.cons_append, List.cons_append, List.append_assoc]
    exact .call hn rfl rfl (ih _)
  | group _ _ _ ih =>
    rw [Phrase.written, written, List.cons_append, List.append_assoc]
    exact .group rfl rfl (ih _)
  | prefixed hx ho _ ih => exact .prefixed hx ho (ih vs)

/-! ## What was written and what was read -/

/-- What is left of tokens that are spelled as their kinds is so, too. -/
theorem Reads.isSpelled {p : Phrase} {ts us : List Token} (h : Reads p ts us)
    (hs : ∀ t ∈ ts, t.IsSpelled) : ∀ t ∈ us, t.IsSpelled := by
  obtain ⟨vs, rfl, -⟩ := h.derives
  exact fun t ht => hs t (List.mem_append_right vs ht)

/-- No tokens are lost or added between what is read and what is written of it, and all stay in
order. -/
theorem reads_faces {p : Phrase} {ts us : List Token} (h : Reads p ts us)
    (hs : ∀ t ∈ ts, t.IsSpelled) :
    (withoutEndCommas ts).map Token.face =
      p.written.map Token.face ++ (withoutEndCommas us).map Token.face := by
  induction h with
  | expression _ ih =>
    rw [Phrase.written, written_ofSequence]
    exact ih hs
  | list h _ ih ih' =>
    rw [ih hs, ih' (h.isSpelled hs)]
    simp [Phrase.written, writtenList]
  | noItems => rfl
  | item hc h _ ih ih' =>
    obtain ⟨hcs, hs⟩ := List.forall_mem_cons.mp hs
    have hnext := (Parser.startsWith_of_begins (Parser.reads_begins h)).1
    rw [faces_comma hcs hc hnext, ih hs, ih' (h.isSpelled hs)]
    simp [Phrase.written, writtenItems]
  | tier h _ ih ih' =>
    rw [ih hs, ih' (h.isSpelled hs), Phrase.written_below]
    simp [Phrase.written]
  | noLinks => rfl
  | link hx _ h _ ih ih' =>
    obtain ⟨-, hs⟩ := List.forall_mem_cons.mp hs
    rw [faces_cons _ hx nofun, ih hs, ih' (h.isSpelled hs), Phrase.written_below]
    simp [Phrase.written, writtenLinks]
  | atomic h _ _ ih ih' =>
    rw [ih hs, ih' (h.isSpelled hs)]
    simp [Phrase.written]
  | postfixed h _ _ hx _ ih ih' =>
    rw [ih hs, ih' (h.isSpelled hs), faces_cons _ hx nofun]
    simp [Phrase.written, written]
  | noKeys => rfl
  | key hl hr h _ ih ih' =>
    obtain ⟨hls, hs⟩ := List.forall_mem_cons.mp hs
    obtain ⟨hrs, hs'⟩ := List.forall_mem_cons.mp (h.isSpelled hs)
    rw [faces_delimiter _ hls hl rfl nofun, ih hs, faces_delimiter _ hrs hr rfl nofun, ih' hs']
    simp [Phrase.written, writtenKeys]
  | literal hx => exact faces_cons _ hx nofun
  | reference hx => exact faces_cons _ hx nofun
  | emptyArray hl hr =>
    obtain ⟨-, hs⟩ := List.forall_mem_cons.mp hs
    obtain ⟨hrs, -⟩ := List.forall_mem_cons.mp hs
    rw [faces_cons _ hl nofun, faces_delimiter _ hrs hr rfl nofun]
    simp [Phrase.written, written, writtenList]
  | array hl hr h ih =>
    obtain ⟨-, hs⟩ := List.forall_mem_cons.mp hs
    obtain ⟨hrs, -⟩ := List.forall_mem_cons.mp (h.isSpelled hs)
    rw [faces_cons _ hl nofun, ih hs, faces_delimiter _ hrs hr rfl nofun]
    simp [Phrase.written, written]
  | emptyCall hn hl hr =>
    obtain ⟨-, hs⟩ := List.forall_mem_cons.mp hs
    obtain ⟨hls, hs⟩ := List.forall_mem_cons.mp hs
    obtain ⟨hrs, -⟩ := List.forall_mem_cons.mp hs
    rw [faces_cons _ hn nofun, faces_delimiter _ hls hl rfl nofun,
      faces_delimiter _ hrs hr rfl nofun]
    simp [Phrase.written, written, writtenList]
  | call hn hl hr h ih =>
    obtain ⟨-, hs⟩ := List.forall_mem_cons.mp hs
    obtain ⟨hls, hs⟩ := List.forall_mem_cons.mp hs
    obtain ⟨hrs, -⟩ := List.forall_mem_cons.mp (h.isSpelled hs)
    rw [faces_cons _ hn nofun, faces_delimiter _ hls hl rfl nofun, ih hs,
      faces_delimiter _ hrs hr rfl nofun]
    simp [Phrase.written, written]
  | callWithComma hn hl hc hr h ih =>
    obtain ⟨-, hs⟩ := List.forall_mem_cons.mp hs
    obtain ⟨hls, hs⟩ := List.forall_mem_cons.mp hs
    obtain ⟨-, hs'⟩ := List.forall_mem_cons.mp (h.isSpelled hs)
    obtain ⟨hrs, -⟩ := List.forall_mem_cons.mp hs'
    rw [faces_cons _ hn nofun, faces_delimiter _ hls hl rfl nofun, ih hs,
      withoutEndCommas_comma _ hc hr, faces_delimiter _ hrs hr rfl nofun]
    simp [Phrase.written, written]
  | group hl hr h ih =>
    obtain ⟨hls, hs⟩ := List.forall_mem_cons.mp hs
    obtain ⟨hrs, -⟩ := List.forall_mem_cons.mp (h.isSpelled hs)
    rw [faces_delimiter _ hls hl rfl nofun, ih hs, faces_delimiter _ hrs hr rfl nofun]
    simp [Phrase.written, written]
  | prefixed hx _ _ ih =>
    obtain ⟨-, hs⟩ := List.forall_mem_cons.mp hs
    rw [faces_cons _ hx nofun, ih hs]
    simp [Phrase.written, written]

end Grammar

/-! ## Formulas and their terms -/

/-- The term of a formula is written with the kinds and texts of its tokens, without the commas at
the ends of calls. -/
theorem faces_of_parse {maxDepth : Option Nat} {formula : String} {t : Term}
    (h : parse maxDepth (tokens formula) = .ok t) :
    t.written.map Token.face = (withoutEndCommas (tokens formula)).map Token.face := by
  have hs := reads_faces (parse_reads h) (Lexer.tokens_spread formula).isSpelled
  rw [hs]
  simp [Phrase.written, withoutEndCommas]

/-- The tokens that a term of tokens is written as make the same term, within the same limit. -/
theorem parse_written {maxDepth : Option Nat} {ts : List Token} {t : Term}
    (h : parse maxDepth ts = .ok t) : parse maxDepth t.written = .ok t := by
  obtain ⟨hr, hd⟩ := parse_eq_ok_iff_within.mp h
  have hw := reads_written hr []
  rw [List.append_nil] at hw
  exact parse_eq_ok_iff_within.mpr ⟨hw, hd⟩

/-- A term is faithful to its formula, whatever the limit on its depth: it is written as the tokens
of the formula without the commas at the ends of calls, it is read back from them, and another
formula of the same term has the same tokens but for such commas, so that the two differ only in
these, in white space and in characters at which no token begins. -/
theorem term_faithful {maxDepth : Option Nat} {formula : String} {t : Term}
    (h : parse maxDepth (tokens formula) = .ok t) :
    t.written.map Token.face = (withoutEndCommas (tokens formula)).map Token.face ∧
    parse maxDepth t.written = .ok t ∧
    Lexer.Spread (tokens formula) formula.toList ∧
    ∀ (maxDepth' : Option Nat) (other : String) (u : Term),
      parse maxDepth' (tokens other) = .ok u → u.unplaced = t.unplaced →
      Lexer.Spread (tokens other) other.toList ∧
      (withoutEndCommas (tokens other)).map Token.face =
        (withoutEndCommas (tokens formula)).map Token.face := by
  refine ⟨faces_of_parse h, parse_written h, Lexer.tokens_spread formula, ?_⟩
  intro maxDepth' other u hu hsame
  refine ⟨Lexer.tokens_spread other, ?_⟩
  calc (withoutEndCommas (tokens other)).map Token.face
      = u.written.map Token.face := (faces_of_parse hu).symm
    _ = u.unplaced.written.map Token.face := (Term.faces_unplaced u).symm
    _ = t.unplaced.written.map Token.face := by rw [hsame]
    _ = t.written.map Token.face := Term.faces_unplaced t
    _ = (withoutEndCommas (tokens formula)).map Token.face := faces_of_parse h

/-- The comma, the blanks and the stray character are all that tells the two formulas apart. -/
theorem term_faithful_comma :
    ∃ t u, parse (some 3) (tokens "-{a}[0]++ * SUM(1,)") = .ok t ∧
      parse none (tokens "-{a}[0]++*SUM(1)#") = .ok u ∧
      t.written.map Token.face = (withoutEndCommas (tokens "-{a}[0]++ * SUM(1,)")).map Token.face ∧
      (withoutEndCommas (tokens "-{a}[0]++*SUM(1)#")).map Token.face =
        (withoutEndCommas (tokens "-{a}[0]++ * SUM(1,)")).map Token.face := by
  obtain ⟨t, u, ht, hu, hsame⟩ : ∃ t u, parse (some 3) (tokens "-{a}[0]++ * SUM(1,)") = .ok t ∧
      parse none (tokens "-{a}[0]++*SUM(1)#") = .ok u ∧ u.unplaced = t.unplaced := by
    refine ⟨?t, ?u, ?ht, ?hu, ?same⟩
    case ht => cbv; rfl
    case hu => cbv; rfl
    case same => cbv
  have h := term_faithful ht
  exact ⟨t, u, ht, hu, h.1, (h.2.2.2 _ _ u hu hsame).2⟩

end Formula
