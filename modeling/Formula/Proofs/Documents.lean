import Mathlib
import Formula.Json.Reader
import Formula.Json.Writer
import Formula.Proofs.Digits

/-!
JSON text is read back. `Writes` says that a reader finds a value in a text, whatever comes behind
it that does not continue a number.

* `stringRest_escaped`, `scalar_integerText`: strings and integers are read back;
* `items_separated`, `members_separated`: so are items and members between brackets;
* `writes_document`, `ofText?_text`: and so every document without doubles;
* `membersOfText?_text`: and the members of an object that are asked for.
-/

namespace Formula.Json

open Formula.Text

/-! ## Strings -/

theorem unit?_hexDigits {n : Nat} (h : n < 32) :
    unit? '0' '0' (hexDigit (n / 16)) (hexDigit n) = some n := by
  decide +revert

theorem stringBody_plain {c : Char} (hquote : c ≠ '\u0022') (hslash : c ≠ '\\')
    (hcontrol : ¬ c.toNat < 32) (cs : List Char) :
    stringBody (c :: cs) = onto c (stringBody cs) := by
  rw [stringBody.eq_def]
  split
  · next h => cases h
  · next h => exact absurd (List.cons.inj h).1 hslash
  · next h => exact absurd (List.cons.inj h).1 hslash
  · next h =>
    obtain ⟨rfl, rfl⟩ := List.cons.inj h
    rw [if_neg hquote, if_neg hcontrol]

theorem stringBody_backslash {c d : Char} (h : unescaped? d = some c) (cs : List Char) :
    stringBody ('\\' :: d :: cs) = onto c (stringBody cs) := by
  have hd : d ≠ 'u' := by
    rintro rfl
    cases h
  rw [stringBody.eq_def]
  split
  · next h' => cases h'
  · next h' => exact absurd (List.cons.inj (List.cons.inj h').2).1 hd
  · next h' =>
    obtain ⟨rfl, rfl⟩ := List.cons.inj (List.cons.inj h').2
    simp only [h]
  · next hne h' =>
    obtain ⟨rfl, rfl⟩ := List.cons.inj h'
    exact absurd rfl (hne d cs rfl)

theorem stringBody_unit {n : Nat} (h : n < 32) (cs : List Char) :
    stringBody ('\\' :: 'u' :: '0' :: '0' :: hexDigit (n / 16) :: hexDigit n :: cs) =
      onto (Char.ofNat n) (stringBody cs) := by
  have htrailing : isTrailing n = false := by
    simp only [isTrailing, Bool.and_eq_false_iff, decide_eq_false_iff_not]
    omega
  have hleading : isLeading n = false := by
    simp only [isLeading, Bool.and_eq_false_iff, decide_eq_false_iff_not]
    omega
  rw [stringBody]
  simp only [unit?_hexDigits h, htrailing, hleading, Bool.false_eq_true, if_false]

/-- A character is read back, whatever comes behind it. -/
theorem stringBody_escaped (c : Char) (cs : List Char) :
    stringBody (escaped c ++ cs) = onto c (stringBody cs) := by
  unfold escaped
  iterate 7
    split
    · next hc => exact stringBody_backslash (by rw [hc]; rfl) cs
  split
  · next hcontrol =>
    have hunit := stringBody_unit hcontrol cs
    rw [Char.ofNat_toNat] at hunit
    exact hunit
  · next hquote hslash _ _ _ _ _ hcontrol => exact stringBody_plain hquote hslash hcontrol cs

theorem stringRest_escaped (s : String) (rest : List Char) :
    stringRest (s.toList.flatMap escaped ++ '\u0022' :: rest) = some (s, rest) := by
  have hbody : ∀ cs : List Char,
      stringBody (cs.flatMap escaped ++ '\u0022' :: rest) = some (cs, rest) := by
    intro cs
    induction cs with
    | nil => simp [stringBody]
    | cons c cs ih =>
      rw [List.flatMap_cons, List.append_assoc, stringBody_escaped, ih]
      rfl
  simp only [stringRest, hbody, Option.map_some, String.ofList_toList]

/-! ## Numbers -/

def Ends (cs : List Char) : Prop :=
  ∀ c ds, cs = c :: ds → isDigit c = false ∧ c ≠ '.' ∧ c ≠ 'e' ∧ c ≠ 'E'

theorem wholeDigits?_digitsOf (n : Nat) {rest : List Char} (hr : Ends rest) :
    wholeDigits? (digitsOf n ++ rest) = some (digitsOf n, rest) := by
  have hstops : Lexer.Stops isDigit rest := fun c ds hc => (hr c ds hc).1
  have hdigits := (digitsOf_digits n).2
  rw [wholeDigits?, Lexer.takeWhile_stops hdigits hstops, Lexer.dropWhile_stops hdigits hstops]
  split
  · next h => exact absurd h (digitsOf_digits n).1
  · next c ds h =>
    -- only 0 begins with a zero, and it has one digit
    obtain rfl | hn := Nat.eq_zero_or_pos n
    · cases h
    · exact absurd (by rw [h]; rfl) (head_digitsOf hn)
  · rfl

theorem unsigned_digitsOf (negative : Bool) (n : Nat) {rest : List Char} (hr : Ends rest) :
    unsigned negative (digitsOf n ++ rest) =
      (ofWhole negative (digitsOf n)).map fun j => (j, rest) := by
  have hfraction : fractionDigits? rest = some (none, rest) := by
    unfold fractionDigits?
    split
    · next cs => exact absurd rfl (hr '.' cs rfl).2.1
    · rfl
  have hexponent : exponentDigits? rest = some (none, rest) := by
    cases rest with
    | nil => rfl
    | cons c ds =>
      obtain ⟨-, -, he, hE⟩ := hr c ds rfl
      rw [exponentDigits?, if_neg (by simp [he, hE])]
  rw [unsigned, wholeDigits?_digitsOf n hr]
  show (fractionDigits? rest >>= _) = _
  rw [hfraction]
  show (exponentDigits? rest >>= _) = _
  rw [hexponent]
  rfl

/-- The integers that are kept apart from other numbers. -/
def IsWord (n : Int) : Prop := -2 ^ 63 ≤ n ∧ n < 2 ^ 64

theorem ofWhole_natural {n : Nat} (h : n < 2 ^ 64) :
    ofWhole false (digitsOf n) = some (.integer n) := by
  rw [ofWhole, digitsValue_digitsOf]
  have hn : n < Nat.pow 2 64 := h
  simp [hn]

theorem ofWhole_negative {n : Nat} (hpos : 0 < n) (h : n ≤ 2 ^ 63) :
    ofWhole true (digitsOf n) = some (.integer (-n)) := by
  rw [ofWhole, digitsValue_digitsOf]
  have hn : n ≤ Nat.pow 2 63 := h
  simp [hpos, hn]

theorem ne_of_digit {c d : Char} (hc : isDigit c = true) (hd : isDigit d = false) : c ≠ d := by
  rintro rfl
  rw [hc] at hd
  cases hd

theorem scalar_of_digit {c : Char} (h : isDigit c = true) (cs : List Char) :
    scalar (c :: cs) = unsigned false (c :: cs) := by
  unfold scalar
  split
  · next heq => exact absurd (List.cons.inj heq).1 (ne_of_digit h (by decide))
  · next heq => exact absurd (List.cons.inj heq).1 (ne_of_digit h (by decide))
  · next heq => exact absurd (List.cons.inj heq).1 (ne_of_digit h (by decide))
  · next heq => exact absurd (List.cons.inj heq).1 (ne_of_digit h (by decide))
  · next heq => exact absurd (List.cons.inj heq).1 (ne_of_digit h (by decide))
  · rfl

theorem scalar_integerText {n : Int} (h : IsWord n) {rest : List Char} (hr : Ends rest) :
    scalar (integerText n ++ rest) = some (.integer n, rest) := by
  rw [integerText, Number.exponentText]
  split
  · next hneg =>
    show unsigned true (digitsOf (-n).toNat ++ rest) = _
    rw [unsigned_digitsOf true _ hr, ofWhole_negative (by omega) (by unfold IsWord at h; omega)]
    have hn : -((-n).toNat : Int) = n := by omega
    rw [hn]
    rfl
  · next hneg =>
    have hscalar : scalar (digitsOf n.toNat ++ rest) =
        unsigned false (digitsOf n.toNat ++ rest) := by
      obtain ⟨hne, hdigits⟩ := digitsOf_digits n.toNat
      cases hd : digitsOf n.toNat with
      | nil => exact absurd hd hne
      | cons c ds => exact scalar_of_digit (hdigits c (by rw [hd]; exact .head _)) _
    rw [List.nil_append, hscalar, unsigned_digitsOf false _ hr,
      ofWhole_natural (by unfold IsWord at h; omega)]
    have hn : (n.toNat : Int) = n := by omega
    rw [hn]
    rfl

/-! ## Items -/

section

variable {α : Type}

/-- A reader finds a value in a text in front of whatever does not continue a number. -/
def Writes (read : Reading α) (text : List Char) (a : α) : Prop :=
  ∀ rest, Ends rest → read (text ++ rest) = some (a, rest)

/-- The text begins with neither white space nor a closing bracket. -/
def Begins (closing : Char) (text : List Char) : Prop :=
  ∃ c cs, text = c :: cs ∧ isSpace c = false ∧ c ≠ closing

def IsClosing (c : Char) : Prop := c = ']' ∨ c = '\x7d'

theorem IsClosing.ends {closing : Char} (h : IsClosing closing) (rest : List Char) :
    Ends (closing :: rest) := by
  rintro c ds ⟨⟩
  rcases h with rfl | rfl <;> decide

theorem IsClosing.not_space {closing : Char} (h : IsClosing closing) :
    isSpace closing = false := by
  rcases h with rfl | rfl <;> decide

theorem skipSpace_cons {c : Char} (h : isSpace c = false) (cs : List Char) :
    skipSpace (c :: cs) = c :: cs :=
  List.dropWhile_cons_of_neg (by rw [h]; decide)

theorem separated_cons_cons (sep text text' : List Char) (texts : List (List Char)) :
    separated sep (text :: text' :: texts) = text ++ sep ++ separated sep (text' :: texts) := rfl

theorem length_le_separated {texts : List (List Char)} (h : ∀ text ∈ texts, text ≠ [])
    (sep : List Char) : texts.length ≤ (separated sep texts).length := by
  induction texts with
  | nil => exact Nat.zero_le _
  | cons text texts ih =>
    obtain ⟨htext, htexts⟩ := List.forall_mem_cons.mp h
    have hpos := List.length_pos_iff.mpr htext
    have hrest := ih htexts
    cases texts with
    | nil => exact hpos
    | cons text' texts =>
      simp only [separated_cons_cons, List.length_append, List.length_cons] at hrest ⊢
      omega

theorem itemsUntil_last {closing : Char} (hc : IsClosing closing) {item : Reading α} {x : α}
    {cs rest : List Char} (hx : item cs = some (x, closing :: rest)) (n : Nat) :
    itemsUntil closing item (n + 1) cs = some ([x], rest) := by
  rw [itemsUntil]
  beta_reduce
  rw [hx, Option.bind_eq_bind, Option.bind_some]
  dsimp only
  rw [skipSpace_cons hc.not_space]
  rcases hc with rfl | rfl <;> rfl

theorem itemsUntil_more {closing : Char} {item : Reading α} {x : α} {xs : List α}
    {cs cs' rest : List Char} {n : Nat} (hx : item cs = some (x, ',' :: cs'))
    (hxs : itemsUntil closing item n cs' = some (xs, rest)) :
    itemsUntil closing item (n + 1) cs = some (x :: xs, rest) := by
  rw [itemsUntil]
  beta_reduce
  rw [hx, Option.bind_eq_bind, Option.bind_some]
  dsimp only
  rw [skipSpace_cons (by decide)]
  show (itemsUntil closing item n cs' >>= fun p => some (x :: p.1, p.2)) = some (x :: xs, rest)
  rw [hxs]
  rfl

theorem itemsUntil_separated {closing : Char} (hc : IsClosing closing) {item : Reading α}
    {texts : List (List Char)} {xs : List α} (h : List.Forall₂ (Writes item) texts xs)
    (hne : texts ≠ []) {n : Nat} (hn : texts.length ≤ n) (rest : List Char) :
    itemsUntil closing item n (separated [','] texts ++ closing :: rest) = some (xs, rest) := by
  induction h generalizing n with
  | nil => exact absurd rfl hne
  | @cons text x texts xs hx hxs ih =>
    obtain ⟨m, rfl⟩ : ∃ m, n = m + 1 := ⟨n - 1, by simp only [List.length_cons] at hn; omega⟩
    cases hxs with
    | nil =>
      rw [separated]
      exact itemsUntil_last hc (hx _ (hc.ends rest)) m
    | cons hx' hxs' =>
      have hrest := ih (List.cons_ne_nil _ _) (Nat.le_of_succ_le_succ hn)
      have hends : ∀ cs, Ends (',' :: cs) := by
        rintro cs c ds ⟨⟩
        decide
      rw [separated_cons_cons, List.append_assoc, List.append_assoc, List.singleton_append]
      exact itemsUntil_more (hx _ (hends _)) hrest

/-- Items are read back, whatever comes behind the bracket. -/
theorem items_separated {closing : Char} (hc : IsClosing closing) {item : Reading α}
    {texts : List (List Char)} {xs : List α} (h : List.Forall₂ (Writes item) texts xs)
    (hbegins : ∀ text ∈ texts, Begins closing text) (rest : List Char) :
    items closing item (separated [','] texts ++ closing :: rest) = some (xs, rest) := by
  have hlength : texts.length ≤ (separated [','] texts ++ closing :: rest).length := by
    have hsep := length_le_separated (fun text ht => by
      obtain ⟨c, cs, rfl, -⟩ := hbegins text ht
      exact List.cons_ne_nil c cs) [',']
    rw [List.length_append]
    omega
  cases h with
  | nil =>
    rw [separated, List.nil_append, items, skipSpace_cons hc.not_space]
    exact if_pos rfl
  | @cons text x texts xs hx hxs =>
    obtain ⟨c, cs, htext, hspace, hne⟩ := hbegins text (.head _)
    obtain ⟨ds, hds⟩ : ∃ ds, separated [','] (text :: texts) ++ closing :: rest = c :: ds := by
      rw [htext]
      cases texts <;> exact ⟨_, rfl⟩
    have hread := itemsUntil_separated hc (.cons hx hxs) (List.cons_ne_nil _ _) hlength rest
    rw [hds] at hread ⊢
    rw [items, skipSpace_cons hspace]
    exact (if_neg hne).trans hread

end

/-! ## Documents -/

/-- A document without doubles, with integers of sixty-four bits, that nests at most so many arrays
and objects. -/
inductive Exact : Nat → Json → Prop
  | null {room : Nat} : Exact room .null
  | boolean {room : Nat} (b : Bool) : Exact room (.boolean b)
  | integer {room : Nat} {n : Int} (h : IsWord n) : Exact room (.integer n)
  | string {room : Nat} (s : String) : Exact room (.string s)
  | array {room : Nat} {items : List Json} (h : ∀ j ∈ items, Exact room j) :
    Exact (room + 1) (.array items)
  | object {room : Nat} {members : List (String × Json)} (h : ∀ m ∈ members, Exact room m.2) :
    Exact (room + 1) (.object members)

theorem itemChars_eq_map (items : List Json) : itemChars items = items.map chars := by
  induction items with
  | nil => rfl
  | cons item items ih => rw [itemChars, ih, List.map_cons]

theorem memberChars_eq_map (members : List (String × Json)) :
    memberChars members = members.map fun m => quoted m.1 ++ ':' :: m.2.chars := by
  induction members with
  | nil => rfl
  | cons m members ih =>
    obtain ⟨name, j⟩ := m
    rw [memberChars, ih, List.map_cons]

theorem head_integerText (n : Int) :
    ∃ c cs, integerText n = c :: cs ∧ (c = '-' ∨ isDigit c = true) := by
  rw [integerText, Number.exponentText]
  split
  · exact ⟨_, _, rfl, .inl rfl⟩
  · obtain ⟨hne, hdigits⟩ := digitsOf_digits n.toNat
    cases hd : digitsOf n.toNat with
    | nil => exact absurd hd hne
    | cons c ds => exact ⟨c, ds, rfl, .inr (hdigits c (by rw [hd]; exact .head _))⟩

/-- An integer does not begin with one of the other characters of JSON. -/
theorem ne_of_head {c d : Char} (hc : c = '-' ∨ isDigit c = true) (hd : isDigit d = false)
    (hminus : '-' ≠ d) : c ≠ d := by
  rcases hc with rfl | hc
  · exact hminus
  · exact ne_of_digit hc hd

theorem not_space_of_head {c : Char} (hc : c = '-' ∨ isDigit c = true) : isSpace c = false := by
  have hblank : c ≠ ' ' := ne_of_head hc (by decide) (by decide)
  have htab : c ≠ '\t' := ne_of_head hc (by decide) (by decide)
  have hline : c ≠ '\n' := ne_of_head hc (by decide) (by decide)
  have hreturn : c ≠ '\r' := ne_of_head hc (by decide) (by decide)
  simp [isSpace, hblank, htab, hline, hreturn]

theorem begins_chars {room : Nat} {j : Json} (h : Exact room j) : Begins ']' j.chars := by
  cases h with
  | null => exact ⟨_, _, rfl, by decide, by decide⟩
  | boolean b => cases b <;> exact ⟨_, _, rfl, by decide, by decide⟩
  | @integer _ n _ =>
    obtain ⟨c, cs, hcs, hc⟩ := head_integerText n
    exact ⟨c, cs, hcs, not_space_of_head hc, ne_of_head hc (by decide) (by decide)⟩
  | string s => exact ⟨_, _, rfl, by decide, by decide⟩
  | array _ => exact ⟨_, _, rfl, by decide, by decide⟩
  | object _ => exact ⟨_, _, rfl, by decide, by decide⟩

theorem value_of_scalar (room : Nat) {c : Char} (hspace : isSpace c = false) (hl : c ≠ '[')
    (hb : c ≠ '\x7b') (cs : List Char) : value room (c :: cs) = scalar (c :: cs) := by
  cases room with
  | zero =>
    show scalar (skipSpace (c :: cs)) = scalar (c :: cs)
    rw [skipSpace_cons hspace]
  | succ room =>
    rw [value]
    beta_reduce
    rw [skipSpace_cons hspace]
    split
    · next heq => exact absurd (List.cons.inj heq).1 hl
    · next heq => exact absurd (List.cons.inj heq).1 hb
    · rfl

/-- A member is read back if its value is. -/
theorem writes_member {α : Type} {read : String → Reading α} {name : String} {text : List Char}
    {a : α} (h : Writes (read name) text a) :
    Writes (member read) (quoted name ++ ':' :: text) (name, a) := by
  intro rest hr
  have hcs : quoted name ++ ':' :: text ++ rest =
      '\u0022' :: (name.toList.flatMap escaped ++ '\u0022' :: ':' :: (text ++ rest)) := by
    simp [quoted]
  rw [hcs, member, skipSpace_cons (by decide)]
  show (stringRest (name.toList.flatMap escaped ++ '\u0022' :: ':' :: (text ++ rest)) >>= _) = _
  rw [stringRest_escaped]
  show (read name (text ++ rest) >>= _) = _
  rw [h rest hr]
  rfl

/-- The members of an object are read back if their values are, as `f` says. -/
theorem members_separated {α : Type} {read : String → Reading α} {f : Json → α}
    {members : List (String × Json)} (h : ∀ m ∈ members, Writes (read m.1) m.2.chars (f m.2))
    (rest : List Char) :
    items '\x7d' (member read) (separated [','] (memberChars members) ++ '\x7d' :: rest) =
      some (members.map fun m => (m.1, f m.2), rest) := by
  rw [memberChars_eq_map]
  refine items_separated (.inr rfl) ?_ ?_ rest
  · rw [List.forall₂_map_left_iff, List.forall₂_map_right_iff]
    exact List.forall₂_same.mpr fun m hm => writes_member (h m hm)
  · intro text ht
    obtain ⟨m, -, rfl⟩ := List.mem_map.mp ht
    exact ⟨_, _, rfl, by decide, by decide⟩

/-- A document without doubles is read back. -/
theorem writes_document {room : Nat} {j : Json} (h : Exact room j) :
    Writes (value room) j.chars j := by
  induction h with
  | null =>
    intro rest hr
    exact value_of_scalar _ (by decide) (by decide) (by decide) _
  | boolean b =>
    intro rest hr
    cases b <;> exact value_of_scalar _ (by decide) (by decide) (by decide) _
  | @integer room n h =>
    intro rest hr
    have hscalar := scalar_integerText h hr
    obtain ⟨c, cs, hcs, hc⟩ := head_integerText n
    have hl : c ≠ '[' := ne_of_head hc (by decide) (by decide)
    have hb : c ≠ '\x7b' := ne_of_head hc (by decide) (by decide)
    rw [hcs, List.cons_append] at hscalar
    rw [chars, hcs, List.cons_append, value_of_scalar room (not_space_of_head hc) hl hb]
    exact hscalar
  | string s =>
    intro rest hr
    have hcs : chars (.string s) ++ rest =
        '\u0022' :: (s.toList.flatMap escaped ++ '\u0022' :: rest) := by
      simp [chars, quoted]
    rw [hcs, value_of_scalar _ (by decide) (by decide) (by decide), scalar, stringRest_escaped]
    rfl
  | @array room items h ih =>
    intro rest hr
    have hcs : chars (.array items) ++ rest =
        '[' :: (separated [','] (items.map chars) ++ ']' :: rest) := by
      simp [chars, itemChars_eq_map]
    have hitems : List.Forall₂ (Writes (value room)) (items.map chars) items := by
      rw [List.forall₂_map_left_iff]
      exact List.forall₂_same.mpr ih
    have hbegins : ∀ text ∈ items.map chars, Begins ']' text := by
      intro text ht
      obtain ⟨j, hj, rfl⟩ := List.mem_map.mp ht
      exact begins_chars (h j hj)
    have hread := items_separated (.inl rfl) hitems hbegins rest
    rw [hcs, value]
    beta_reduce
    rw [skipSpace_cons (by decide)]
    show Option.map (fun p => (Json.array p.1, p.2)) (Json.items ']' (value room)
      (separated [','] (items.map chars) ++ ']' :: rest)) = _
    rw [hread]
    rfl
  | @object room members h ih =>
    intro rest hr
    have hcs : chars (.object members) ++ rest =
        '\x7b' :: (separated [','] (memberChars members) ++ '\x7d' :: rest) := by
      simp [chars]
    have hread : Json.items '\x7d' (member fun _ => value room)
        (separated [','] (memberChars members) ++ '\x7d' :: rest) =
          some (members.map fun m => (m.1, m.2), rest) :=
      members_separated (f := fun j => j) ih rest
    rw [hcs, value]
    beta_reduce
    rw [skipSpace_cons (by decide)]
    show Option.map (fun p => (Json.object p.1, p.2)) (Json.items '\x7d'
      (member fun _ => value room) (separated [','] (memberChars members) ++ '\x7d' :: rest)) = _
    rw [hread, List.map_id']
    rfl

/-- The text of a document without doubles, of no more levels than are read, gives the document. -/
theorem ofText?_text {j : Json} (h : Exact maxNesting j) : ofText? j.text = some j := by
  have hread := writes_document h [] nofun
  rw [List.append_nil] at hread
  rw [ofText?, text, String.toList_ofList, hread]
  rfl

/-- The text of an object gives its members, if all of them are wanted. -/
theorem membersOfText?_text {wanted : List String} {members : List (String × Json)}
    (hwanted : ∀ m ∈ members, m.1 ∈ wanted) (h : ∀ m ∈ members, Exact (maxNesting - 1) m.2) :
    membersOfText? wanted (object members).text = some members := by
  have hvalues : ∀ m ∈ members,
      Writes (valueIf (wanted.contains m.1)) m.2.chars (some m.2) := by
    intro m hm rest hr
    have hcontains : wanted.contains m.1 = true := by simpa using hwanted m hm
    rw [valueIf, if_pos hcontains, writes_document (h m hm) rest hr]
    rfl
  have hread : items '\x7d' (member fun name => valueIf (wanted.contains name))
      (separated [','] (memberChars members) ++ ['\x7d']) =
        some (members.map fun m => (m.1, some m.2), []) :=
    members_separated hvalues []
  have hcs : (object members).text.toList =
      '\x7b' :: (separated [','] (memberChars members) ++ ['\x7d']) := by
    rw [text, String.toList_ofList, chars]
    rfl
  rw [membersOfText?, hcs, skipSpace_cons (by decide)]
  show (whole (items '\x7d' (member fun name => valueIf (wanted.contains name))
    (separated [','] (memberChars members) ++ ['\x7d']))).map _ = _
  rw [hread]
  show some ((members.map fun m => (m.1, some m.2)).filterMap fun p => p.2.map fun j => (p.1, j)) =
    some members
  rw [List.filterMap_map]
  exact congrArg some List.filterMap_some

end Formula.Json
