import Formula.Proofs.Agreement
import Formula.Proofs.Grouping

/-!
Types declared anew, some of them as `any`. Operators and functions accept `any` wherever they
accept a type, with one exception. A sum of `any` and a number counts as a number, where a text and
a number make a text; a sum that was a text may so become a number, which functions on texts refuse.

* `Becomes`: what becomes of a type when some declared types are replaced by `any`;
* `checkIn_widens`: what becomes of the type of a term;
* `check_of_widened`: what becomes of the type of a formula;
* `any_summand_refused`: a formula that is refused for a declaration of `any`.
-/

namespace Formula

/-! ## Types -/

namespace TypeTag

/-- What a type may become when some declared types are replaced by `any`: a text becomes `any`
only where texts are `lost`, and a number only where sums have `turned`. -/
inductive Becomes (lost turned : Prop) : TypeTag → TypeTag → Prop
  | same (t : TypeTag) : Becomes lost turned t t
  | any {t : TypeTag} (h : t = .string → lost) : Becomes lost turned t .any
  | number (h : turned) : Becomes lost turned .string .number

variable {lost lost' turned turned' : Prop} {t u : TypeTag}

theorem Becomes.mono (h : t.Becomes lost turned u) (hl : lost → lost') (ht : turned → turned') :
    t.Becomes lost' turned' u := by
  cases h with
  | same => exact .same t
  | any h => exact .any fun hs => hl (h hs)
  | number h => exact .number (ht h)

theorem Becomes.eq_string (h : t.Becomes lost turned .string) : t = .string := by
  cases h
  rfl

theorem Becomes.string (h : Becomes lost turned .string u) (hne : u ≠ .string) :
    turned ∨ lost := by
  cases h with
  | same => exact absurd rfl hne
  | any h => exact .inr (h rfl)
  | number h => exact .inl h

/-- What accepts numbers if it accepts texts goes on to accept a type. -/
theorem Becomes.satisfies (h : t.Becomes lost turned u) {accepted : List TypeTag}
    (hnumber : .string ∈ accepted → .number ∈ accepted) (ht : t.satisfies accepted = true) :
    u.satisfies accepted = true := by
  cases h with
  | same => exact ht
  | any => rfl
  | number =>
    have hs : .string ∈ accepted := by simpa [TypeTag.satisfies, isAny] using ht
    simpa [TypeTag.satisfies, isAny] using hnumber hs

end TypeTag

open TypeTag

/-! ## Functions -/

/-- The types are accepted for a result, or one of them is refused because sums have turned. -/
def SignatureError.Accepted (turned : Prop) (r : TypeTag)
    (outcome : Except SignatureError TypeTag) : Prop :=
  outcome = .ok r ∨ turned ∧ ∃ place expected, outcome = .error (.wrongType place expected)

open SignatureError

section

variable {lost turned : Prop} {types types' : List TypeTag} {r : TypeTag}

theorem Accepts.admits_becomes {a : Accepts} {t u : TypeTag} (h : t.Becomes lost turned u)
    (ht : a.admits t = true) : a.admits u = true ∨ turned := by
  cases h with
  | same => exact .inl ht
  | any =>
    left
    cases a <;> rfl
  | number h => exact .inr h

namespace Signature

theorem checkFrom_becomes {s : Signature} {place : Nat}
    (hw : List.Forall₂ (Becomes lost turned) types types')
    (h : s.checkFrom place types = .ok r) : Accepted turned r (s.checkFrom place types') := by
  induction hw generalizing place with
  | nil => exact .inl h
  | cons ht _ ih =>
    rw [checkFrom] at h ⊢
    split at h
    · next ha =>
      split
      · exact ih h
      · next hrefused =>
        exact .inr ⟨(Accepts.admits_becomes ht ha).resolve_left hrefused, _, _, rfl⟩
    · cases h

theorem check_becomes {s : Signature} (hw : List.Forall₂ (Becomes lost turned) types types')
    (h : s.check types = .ok r) : Accepted turned r (s.check types') := by
  unfold check at h ⊢
  rw [← hw.length_eq]
  split at h
  · cases h
  · next hleast =>
    rw [if_neg hleast]
    cases hm : s.most with
    | none =>
      rw [hm] at h
      exact checkFrom_becomes hw h
    | some most =>
      simp only [hm] at h ⊢
      split at h
      · cases h
      · next hmost =>
        rw [if_neg hmost]
        exact checkFrom_becomes hw h

end Signature

namespace Library

/-- Two types that are compared stay comparable, unless one of them has turned. -/
theorem comparable_becomes {t u t' u' : TypeTag} (ht : t.Becomes lost turned t')
    (hu : u.Becomes lost turned u') (h : (!t.isAny && !u.isAny && decide (t ≠ u)) = false) :
    (!t'.isAny && !u'.isAny && decide (t' ≠ u')) = false ∨ turned := by
  cases ht with
  | same =>
    cases hu with
    | same => exact .inl h
    | any => exact .inl (by simp [isAny])
    | number hturned => exact .inr hturned
  | any => exact .inl (by simp [isAny])
  | number hturned => exact .inr hturned

theorem checkExact_becomes {s : Signature} (hw : List.Forall₂ (Becomes lost turned) types types')
    (h : checkExact s types = .ok r) : Accepted turned r (checkExact s types') := by
  unfold checkExact at h ⊢
  cases hc : s.check types with
  | error e =>
    rw [hc] at h
    cases h
  | ok returns =>
    rw [hc] at h
    rcases Signature.check_becomes hw hc with hc' | ⟨hturned, place, expected, hc'⟩
    · rw [hc']
      cases hw with
      | nil => exact .inl h
      | cons ht hrest =>
        cases hrest with
        | nil => exact .inl h
        | cons hu hrest =>
          dsimp only at h ⊢
          split at h
          · cases h
          · next hcompare =>
            rcases comparable_becomes ht hu (by simpa using hcompare) with hcompare' | hturned
            · rw [hcompare']
              exact .inl h
            · split
              · exact .inr ⟨hturned, _, _, rfl⟩
              · exact .inl h
    · rw [hc']
      exact .inr ⟨hturned, place, expected, rfl⟩

/-- The functions of the library accept `any` wherever they accept a type. -/
theorem function_becomes {f : Function} (hf : f ∈ functions)
    (hw : List.Forall₂ (Becomes lost turned) types types')
    (h : f.check f.signature types = .ok r) :
    Accepted turned r (f.check f.signature types') := by
  rcases check_of_mem hf with hc | hc
  · rw [hc] at h ⊢
    exact Signature.check_becomes hw h
  · rw [hc] at h ⊢
    exact checkExact_becomes hw h

end Library

end

/-! ## Operators -/

namespace Check

variable {lost turned : Prop} {x : Token} {t t' u u' r : TypeTag}

theorem require_becomes (ht : t.Becomes lost turned t') {expected : List TypeTag} {side : Side}
    (hnumber : .string ∈ expected → .number ∈ expected)
    (h : require t expected x side = .ok ()) : require t' expected x side = .ok () := by
  unfold require at h ⊢
  split at h
  · next hs => rw [if_pos (ht.satisfies hnumber hs)]
  · cases h

/-- What a sum or difference becomes. -/
theorem additive_becomes (ht : t.Becomes lost turned t') (hu : u.Becomes lost turned u')
    (h : additive x t u = .ok r) :
    additive x t' u' = .ok r ∨ r = .string ∧ additive x t' u' = .ok .number ∧
      (turned ∨ x.operator? = some .add ∧ lost) := by
  cases hx : x.operator? with
  | none => simp [additive, hx] at h
  | some o =>
    cases o with
    | add =>
      simp only [additive, hx] at h ⊢
      obtain ⟨⟨⟩, hl, h⟩ := except_bind_eq_ok.mp h
      obtain ⟨⟨⟩, hr, h⟩ := except_bind_eq_ok.mp h
      rw [require_becomes ht (by simp) hl, require_becomes hu (by simp) hr]
      by_cases hs : t = .string ∨ u = .string
      · rw [if_pos hs] at h
        cases h
        by_cases hs' : t' = .string ∨ u' = .string
        · exact .inl (by rw [if_pos hs']; rfl)
        · -- neither side is a text any more
          refine .inr ⟨rfl, by rw [if_neg hs']; rfl, ?_⟩
          rcases hs with rfl | rfl
          · exact (ht.string fun e => hs' (.inl e)).imp_right fun hlost => ⟨trivial, hlost⟩
          · exact (hu.string fun e => hs' (.inr e)).imp_right fun hlost => ⟨trivial, hlost⟩
      · have hs' : ¬ (t' = .string ∨ u' = .string) := by
          rintro (rfl | rfl)
          · exact hs (.inl ht.eq_string)
          · exact hs (.inr hu.eq_string)
        rw [if_neg hs] at h
        rw [if_neg hs']
        exact .inl h
    | subtract | bitAnd | bitOr =>
      simp only [additive, hx] at h ⊢
      obtain ⟨⟨⟩, hl, h⟩ := except_bind_eq_ok.mp h
      obtain ⟨⟨⟩, hr, h⟩ := except_bind_eq_ok.mp h
      rw [require_becomes ht (by simp) hl, require_becomes hu (by simp) hr]
      exact .inl h
    | _ => simp [additive, hx] at h

/-- One operator and its operand: only a sum may have another type than before. -/
theorem combine_becomes {tier : Tier} (ht : t.Becomes lost turned t')
    (hu : u.Becomes lost turned u') (h : combine tier x t u = .ok r) :
    combine tier x t' u' = .ok r ∨ r = .string ∧ combine tier x t' u' = .ok .number ∧
      (turned ∨ tier = .additive ∧ x.operator? = some .add ∧ lost) := by
  cases tier with
  | logical | comparison => exact .inl h
  | additive => simpa [combine] using additive_becomes ht hu h
  | multiplicative =>
    obtain ⟨⟨⟩, hr, h⟩ := except_bind_eq_ok.mp h
    simp only [combine]
    rw [require_becomes hu (by simp) hr]
    exact .inl h

theorem start_becomes {tier : Tier} (ht : t.Becomes lost turned t') {links : List (Token × Term)}
    (h : start tier t links = .ok u) : start tier t' links = .ok t' := by
  cases links with
  | nil => rfl
  | cons link links =>
    cases tier with
    | logical | comparison | additive => rfl
    | multiplicative =>
      obtain ⟨⟨⟩, hl, -⟩ := except_bind_eq_ok.mp h
      simp only [start]
      rw [require_becomes ht (by simp) hl]
      rfl

theorem apply_becomes (ht : t.Becomes lost turned t') (h : apply x t = .ok r) :
    apply x t' = .ok r := by
  unfold apply at h ⊢
  split at h
  · next hn =>
    rw [if_pos hn]
    exact h
  · next hn =>
    obtain ⟨⟨⟩, hr, h⟩ := except_bind_eq_ok.mp h
    rw [if_neg hn, require_becomes ht (by simp) hr]
    exact h

end Check

/-! ## Outcomes -/

namespace CheckError

def IsWrongType : CheckError → Prop
  | .wrongType .. => True
  | _ => False

end CheckError

/-- A check finds what it may find, or a function refuses an argument because sums have turned. -/
def Yields {α : Type} (turned : Prop) (P : α → Prop) (outcome : Except CheckError α) : Prop :=
  (∃ a, outcome = .ok a ∧ P a) ∨ turned ∧ ∃ e, outcome = .error e ∧ e.IsWrongType

namespace Yields

variable {α β : Type} {turned turned' : Prop} {P P' : α → Prop} {Q : β → Prop}

theorem ok {a : α} (h : P a) : Yields turned P (.ok a) := .inl ⟨a, rfl, h⟩

theorem mono {outcome : Except CheckError α} (h : Yields turned P outcome)
    (ht : turned → turned') (hP : ∀ a, P a → P' a) : Yields turned' P' outcome := by
  rcases h with ⟨a, ha, hPa⟩ | ⟨hturned, he⟩
  · exact .inl ⟨a, ha, hP a hPa⟩
  · exact .inr ⟨ht hturned, he⟩

theorem bind {outcome : Except CheckError α} {f : α → Except CheckError β}
    (h : Yields turned P outcome) (hf : ∀ a, outcome = .ok a → P a → Yields turned Q (f a)) :
    Yields turned Q (outcome >>= f) := by
  rcases h with ⟨a, rfl, ha⟩ | ⟨hturned, e, rfl, he⟩
  · exact hf a rfl ha
  · exact .inr ⟨hturned, e, rfl, he⟩

end Yields

/-! ## Terms -/

namespace Term

mutual

/-- The sums in a term: for every operand that a chain adds, the chain up to it. -/
def sums : Term → List Term
  | .literal _ => []
  | .reference _ => []
  | .array _ elements => sumsAll elements
  | .call _ arguments => sumsAll arguments
  | .group inner => inner.sums
  | .unary _ _ operand => operand.sums
  | .index base keys => base.sums ++ sumsAll keys
  | .chain tier head links => head.sums ++ sumsLinks tier head [] links
  | .sequence items => sumsAll items

def sumsAll : List Term → List Term
  | [] => []
  | t :: ts => t.sums ++ sumsAll ts

/-- The sums that the links of a chain make behind those that are done, and the sums in them. -/
def sumsLinks (tier : Tier) (head : Term) (done : List (Token × Term)) :
    List (Token × Term) → List Term
  | [] => []
  | (x, t) :: links =>
    t.sums ++ (if x.operator? = some .add then [.chain tier head (done ++ [(x, t)])] else []) ++
      sumsLinks tier head (done ++ [(x, t)]) links

end

theorem linkMentions_append (done rest : List (Token × Term)) :
    linkMentions (done ++ rest) = linkMentions done ++ linkMentions rest := by
  induction done with
  | nil => rfl
  | cons link done ih =>
    obtain ⟨x, t⟩ := link
    rw [List.cons_append, linkMentions, ih, linkMentions, List.append_assoc]

end Term

namespace Declarations

/-- The same functions, and `any` for some of the types. Whatever becomes of the types of the
arguments, a function accepts them, or refuses a sum that has turned. -/
structure Widens (declarations declarations' : Declarations) : Prop where
  lookup : ∀ p, declarations'.lookup p = declarations.lookup p ∨ declarations'.lookup p = .any
  call : declarations'.call? = declarations.call?
  check : ∀ name check, declarations.call? name = some check → ∀ lost turned types types' r,
    List.Forall₂ (Becomes lost turned) types types' → check types = .ok r →
      Accepted turned r (check types')

variable (declarations declarations' : Declarations)

def Loses (paths : List String) : Prop :=
  ∃ p ∈ paths, declarations.lookup p = .string ∧ declarations'.lookup p = .any

/-- One of the terms was a text and has become a number, for a text among its references that is
lost. -/
def Turns (sums : List Term) : Prop :=
  ∃ s ∈ sums, s.checkIn declarations = .ok .string ∧ s.checkIn declarations' = .ok .number ∧
    declarations.Loses declarations' s.mentions

variable {declarations declarations'}

theorem Loses.mono {ps qs : List String} (hsub : ps ⊆ qs)
    (h : declarations.Loses declarations' ps) : declarations.Loses declarations' qs := by
  obtain ⟨p, hp, hl⟩ := h
  exact ⟨p, hsub hp, hl⟩

theorem Turns.mono {ss us : List Term} (hsub : ss ⊆ us)
    (h : declarations.Turns declarations' ss) : declarations.Turns declarations' us := by
  obtain ⟨s, hs, ht⟩ := h
  exact ⟨s, hsub hs, ht⟩

end Declarations

theorem TypeTag.Becomes.getLast? {lost turned : Prop} {types types' : List TypeTag}
    (h : List.Forall₂ (Becomes lost turned) types types') :
    (types.getLast?.getD .undefined).Becomes lost turned (types'.getLast?.getD .undefined) := by
  induction h with
  | nil => exact .same _
  | cons ht hts ih =>
    cases hts with
    | nil => exact ht
    | cons _ _ => simpa only [List.getLast?_cons_cons] using ih

namespace Term

section

variable {declarations declarations' : Declarations}

/-- The type of a sum or difference with one operand more. -/
theorem checkIn_chain_snoc {head operand : Term} {done : List (Token × Term)} {x : Token}
    {t u r : TypeTag} (hdone : (chain .additive head done).checkIn declarations = .ok t)
    (hu : operand.checkIn declarations = .ok u) (hr : Check.combine .additive x t u = .ok r) :
    (chain .additive head (done ++ [(x, operand)])).checkIn declarations = .ok r := by
  have hstart : ∀ t' links, Check.start .additive t' links = .ok t' := by
    intro t' links
    cases links <;> rfl
  rw [checkIn] at hdone ⊢
  obtain ⟨first, hfirst, hdone⟩ := except_bind_eq_ok.mp hdone
  obtain ⟨first', hsame, hlinks⟩ := except_bind_eq_ok.mp hdone
  have hlast : checkLinks declarations .additive t [(x, operand)] = .ok r := by
    rw [checkLinks]
    refine except_bind_eq_ok.mpr ⟨u, hu, except_bind_eq_ok.mpr ⟨r, hr, ?_⟩⟩
    rw [checkLinks]
  refine except_bind_eq_ok.mpr ⟨first, hfirst, except_bind_eq_ok.mpr ⟨first', ?_, ?_⟩⟩
  · rw [hstart] at hsame ⊢
    exact hsame
  · rw [checkLinks_append]
    exact except_bind_eq_ok.mpr ⟨t, hlinks, hlast⟩

mutual

/-- What becomes of the type of a term. -/
theorem checkIn_widens (hw : declarations.Widens declarations') (t : Term) {r : TypeTag}
    (h : t.checkIn declarations = .ok r) :
    Yields (declarations.Turns declarations' t.sums)
      (r.Becomes (declarations.Loses declarations' t.mentions)
        (declarations.Turns declarations' t.sums)) (t.checkIn declarations') := by
  cases t with
  | literal x =>
    rw [checkIn] at h ⊢
    cases h
    exact .ok (.same _)
  | reference x =>
    rw [checkIn] at h ⊢
    cases h
    refine .ok ?_
    rcases hw.lookup (path x) with hx | hx
    · rw [hx]
      exact .same _
    · rw [hx]
      exact .any fun hs => ⟨path x, by simp [mentions], hs, hx⟩
  | array l elements =>
    rw [checkIn] at h
    rw [checkIn, sums]
    obtain ⟨types, he, h⟩ := except_bind_eq_ok.mp h
    cases h
    exact (checkAll_widens hw elements he).bind fun types' _ _ => .ok (.same _)
  | call name arguments =>
    rw [checkIn] at h
    rw [checkIn, hw.call, sums]
    cases hcall : declarations.call? name with
    | none =>
      rw [hcall] at h
      cases h
    | some check =>
      simp only [hcall] at h ⊢
      obtain ⟨types, ha, h⟩ := except_bind_eq_ok.mp h
      refine (checkAll_widens hw arguments ha).bind fun types' _ hts => ?_
      cases hc : check types with
      | error e =>
        rw [hc] at h
        cases h
      | ok u =>
        rw [hc] at h
        cases h
        rcases hw.check name check hcall _ _ types types' r hts hc with
          hc' | ⟨hturned, place, expected, hc'⟩
        · rw [hc']
          exact .ok (.same _)
        · rw [hc']
          exact .inr ⟨hturned, _, rfl, trivial⟩
  | group inner =>
    rw [checkIn] at h
    rw [checkIn, sums, mentions]
    exact checkIn_widens hw inner h
  | unary fixity x operand =>
    rw [checkIn] at h
    rw [checkIn, sums]
    obtain ⟨t, ho, h⟩ := except_bind_eq_ok.mp h
    refine (checkIn_widens hw operand ho).bind fun t' _ ht => ?_
    rw [Check.apply_becomes ht h]
    exact .ok (.same _)
  | index base keys =>
    rw [checkIn] at h
    rw [checkIn]
    obtain ⟨t, hb, h⟩ := except_bind_eq_ok.mp h
    obtain ⟨types, hk, h⟩ := except_bind_eq_ok.mp h
    cases h
    have hsums : base.sums ⊆ (index base keys).sums := by simp [sums]
    have hsums' : sumsAll keys ⊆ (index base keys).sums := by simp [sums]
    have hpaths : base.mentions ⊆ (index base keys).mentions := by simp [mentions]
    have hbase := (checkIn_widens hw base hb).mono (Declarations.Turns.mono hsums) fun _ ht => ht
    have hkeys := (checkAll_widens hw keys hk).mono (Declarations.Turns.mono hsums') fun _ ht => ht
    refine hbase.bind fun t' _ ht => hkeys.bind fun types' _ hts => .ok ?_
    cases hts with
    | nil => exact ht.mono (.mono hpaths) (.mono hsums)
    | cons _ _ => exact .same _
  | chain tier head links =>
    rw [checkIn] at h
    rw [checkIn]
    obtain ⟨t, hh, hstarts⟩ := except_bind_eq_ok.mp h
    obtain ⟨u, hstart, hl⟩ := except_bind_eq_ok.mp hstarts
    obtain rfl : t = u := (Check.start_eq_ok hstart).symm
    have hsums : head.sums ⊆ (chain tier head links).sums := by simp [sums]
    have hsums' : sumsLinks tier head [] links ⊆ (chain tier head links).sums := by simp [sums]
    have hhead := (checkIn_widens hw head hh).mono (Declarations.Turns.mono hsums) fun _ ht => ht
    refine hhead.bind fun t' hh' ht => ?_
    rw [Check.start_becomes ht hstart]
    -- the front without links has the type of the head
    have hacc : t.Becomes (declarations.Loses declarations' (chain tier head []).mentions)
        (declarations.Turns declarations' (chain tier head links).sums) t' :=
      ht.mono (.mono (by simp [mentions])) (.mono hsums)
    have hfront : (chain tier head []).checkIn declarations = .ok t ∧
        (chain tier head []).checkIn declarations' = .ok t' := by
      rw [checkIn, checkIn, hh, hh']
      exact ⟨rfl, rfl⟩
    exact checkLinks_widens hw links (.mono hsums') hacc (fun _ => hfront) hl
  | sequence items =>
    rw [checkIn] at h
    rw [checkIn, sums, mentions]
    obtain ⟨types, hi, h⟩ := except_bind_eq_ok.mp h
    cases h
    exact (checkAll_widens hw items hi).bind fun types' _ hts => .ok (.getLast? hts)

theorem checkAll_widens (hw : declarations.Widens declarations') (ts : List Term)
    {types : List TypeTag} (h : checkAll declarations ts = .ok types) :
    Yields (declarations.Turns declarations' (sumsAll ts))
      (List.Forall₂ (Becomes (declarations.Loses declarations' (allMentions ts))
        (declarations.Turns declarations' (sumsAll ts))) types) (checkAll declarations' ts) := by
  cases ts with
  | nil =>
    rw [checkAll] at h ⊢
    cases h
    exact .ok .nil
  | cons t ts =>
    rw [checkAll] at h ⊢
    obtain ⟨u, ht, h⟩ := except_bind_eq_ok.mp h
    obtain ⟨us, hts, h⟩ := except_bind_eq_ok.mp h
    cases h
    have hsums : t.sums ⊆ sumsAll (t :: ts) := by simp [sumsAll]
    have hsums' : sumsAll ts ⊆ sumsAll (t :: ts) := by simp [sumsAll]
    have hfirst := (checkIn_widens hw t ht).mono (Declarations.Turns.mono hsums) fun _ hu => hu
    have hrest := (checkAll_widens hw ts hts).mono (Declarations.Turns.mono hsums') fun _ hu => hu
    refine hfirst.bind fun u' _ hu => hrest.bind fun us' _ hus => .ok (.cons ?first (hus.imp ?rest))
    case first => exact hu.mono (.mono (by simp [allMentions])) (.mono hsums)
    case rest => exact fun _ _ hv => hv.mono (.mono (by simp [allMentions])) (.mono hsums')

theorem checkLinks_widens (hw : declarations.Widens declarations') {tier : Tier} {head : Term}
    {done : List (Token × Term)} (links : List (Token × Term)) {acc acc' r : TypeTag}
    {turned : Prop} (hsums : declarations.Turns declarations' (sumsLinks tier head done links) →
      turned)
    (hacc : acc.Becomes (declarations.Loses declarations' (chain tier head done).mentions) turned
      acc')
    (hfront : tier = .additive → (chain tier head done).checkIn declarations = .ok acc ∧
      (chain tier head done).checkIn declarations' = .ok acc')
    (h : checkLinks declarations tier acc links = .ok r) :
    Yields turned
      (r.Becomes (declarations.Loses declarations' (chain tier head (done ++ links)).mentions)
        turned) (checkLinks declarations' tier acc' links) := by
  cases links with
  | nil =>
    rw [checkLinks] at h ⊢
    cases h
    rw [List.append_nil]
    exact .ok hacc
  | cons link links =>
    obtain ⟨x, operand⟩ := link
    rw [checkLinks] at h ⊢
    obtain ⟨u, hu, h⟩ := except_bind_eq_ok.mp h
    obtain ⟨t, ht, h⟩ := except_bind_eq_ok.mp h
    have hpaths : (chain tier head done).mentions ⊆
        (chain tier head (done ++ [(x, operand)])).mentions := by
      simp [mentions, linkMentions_append]
    have hpaths' : operand.mentions ⊆ (chain tier head (done ++ [(x, operand)])).mentions := by
      simp [mentions, linkMentions_append, linkMentions]
    have hoperand : declarations.Turns declarations' operand.sums → turned :=
      fun hturns => hsums (hturns.mono (by simp [sumsLinks]))
    have hlater : declarations.Turns declarations'
        (sumsLinks tier head (done ++ [(x, operand)]) links) → turned :=
      fun hturns => hsums (hturns.mono (by simp [sumsLinks]))
    refine ((checkIn_widens hw operand hu).mono hoperand fun _ hu' => hu').bind fun u' hu' hbu => ?_
    have hbacc := hacc.mono (Declarations.Loses.mono hpaths) id
    have hbu' := hbu.mono (Declarations.Loses.mono hpaths') hoperand
    obtain ⟨t', ht', hbt⟩ : ∃ t', Check.combine tier x acc' u' = .ok t' ∧
        t.Becomes (declarations.Loses declarations'
          (chain tier head (done ++ [(x, operand)])).mentions) turned t' := by
      rcases Check.combine_becomes hbacc hbu' ht with
        hsame | ⟨rfl, hnumber, hturned | ⟨rfl, hx, hlost⟩⟩
      · exact ⟨t, hsame, .same _⟩
      · exact ⟨.number, hnumber, .number hturned⟩
      · -- the chain up to this operand is the sum that turns
        have hbefore := checkIn_chain_snoc (hfront rfl).1 hu ht
        have hafter := checkIn_chain_snoc (hfront rfl).2 hu' hnumber
        have hmem : chain .additive head (done ++ [(x, operand)]) ∈
            sumsLinks .additive head done ((x, operand) :: links) := by simp [sumsLinks, hx]
        exact ⟨.number, hnumber, .number (hsums ⟨_, hmem, hbefore, hafter, hlost⟩)⟩
    rw [ht']
    have hfront' : tier = .additive →
        (chain tier head (done ++ [(x, operand)])).checkIn declarations = .ok t ∧
          (chain tier head (done ++ [(x, operand)])).checkIn declarations' = .ok t' := by
      rintro rfl
      exact ⟨checkIn_chain_snoc (hfront rfl).1 hu ht, checkIn_chain_snoc (hfront rfl).2 hu' ht'⟩
    have hlinks := checkLinks_widens hw links hlater hbt hfront' h
    rw [List.append_assoc] at hlinks
    exact hlinks

end

end

end Term

/-! ## Formulas -/

theorem library_widens {types types' : TypeMap}
    (hw : ∀ p, types'.find p = types.find p ∨ types'.find p = .any) :
    (Library.checks.declarations types).Widens (Library.checks.declarations types') where
  lookup := hw
  call := rfl
  check := by
    intro name check hcheck lost turned ts ts' r hts hr
    simp only [Registry.declarations, Library.checks_get?] at hcheck
    cases hf : Library.named? name.text with
    | none => simp [hf] at hcheck
    | some f =>
      simp only [hf, Option.map_some, Option.some.injEq] at hcheck
      subst hcheck
      exact Library.function_becomes (Library.named?_eq_some hf).1 hts hr

/-- Where some of the declared types are replaced by `any`, a formula that had a type keeps it or
has the type `any`, unless a sum in it that was a text becomes a number, because of a reference that
was declared a text. Then the formula may be a number instead of a text, and a function may refuse
one of its arguments; there is no other error. -/
theorem check_of_widened {options : Options} {types types' : TypeMap} {formula : String}
    {r : TypeTag} (hw : ∀ p, types'.find p = types.find p ∨ types'.find p = .any)
    (h : check Library.checks options types formula = .ok r) :
    (∃ r', check Library.checks options types' formula = .ok r' ∧ (r' = r ∨ r' = .any)) ∨
      (∃ t s, options.read formula = .ok t ∧ s ∈ t.sums ∧
        s.check Library.checks types = .ok .string ∧
        s.check Library.checks types' = .ok .number ∧
        ∃ p ∈ s.references, types.find p = .string ∧ types'.find p = .any) ∧
      (r = .string ∧ check Library.checks options types' formula = .ok .number ∨
        ∃ name position expected found offset, check Library.checks options types' formula =
          .error (.check (.wrongType name position expected found offset))) := by
  obtain ⟨t, ht, hc⟩ := except_bind_eq_ok.mp h
  have hr : t.check Library.checks types = .ok r := mapError_eq_ok.mp hc
  have hread : check Library.checks options types' formula =
      (t.check Library.checks types').mapError .check := by
    rw [check, ht]
    rfl
  have hsum : (Library.checks.declarations types).Turns (Library.checks.declarations types')
      t.sums → ∃ t s, options.read formula = .ok t ∧ s ∈ t.sums ∧
        s.check Library.checks types = .ok .string ∧
        s.check Library.checks types' = .ok .number ∧
        ∃ p ∈ s.references, types.find p = .string ∧ types'.find p = .any := by
    rintro ⟨s, hs, hbefore, hafter, p, hp, hlost⟩
    exact ⟨t, s, ht, hs, hbefore, hafter, p, Term.mem_references.mpr hp, hlost⟩
  rw [hread]
  rcases Term.checkIn_widens (library_widens hw) t hr with
    ⟨r', hr', hbecomes⟩ | ⟨hturned, e, he, hwrong⟩
  · have hr'' : (t.check Library.checks types').mapError FormulaError.check = .ok r' :=
      mapError_eq_ok.mpr hr'
    cases hbecomes with
    | same => exact .inl ⟨r, hr'', .inl rfl⟩
    | any => exact .inl ⟨.any, hr'', .inr rfl⟩
    | number hturned => exact .inr ⟨hsum hturned, .inl ⟨rfl, hr''⟩⟩
  · have he' : (t.check Library.checks types').mapError FormulaError.check = .error (.check e) :=
      mapError_eq_error.mpr ⟨e, he, rfl⟩
    cases e with
    | wrongType name position expected found offset =>
      exact .inr ⟨hsum hturned, .inr ⟨name, position, expected, found, offset, he'⟩⟩
    | tooFew | tooMany | unknownFunction | operand => exact absurd hwrong id

theorem trim_of_text : check Library.checks {} [("x", .string)] "TRIM({x}+1)" = .ok .string := by
  cbv

theorem trim_of_any : check Library.checks {} [("x", .any)] "TRIM({x}+1)" =
    .error (.check (.wrongType "TRIM" 1 [.string] .number 0)) := by
  cbv

/-- A text that is declared `any` and added to a number counts as a number, so that a function on
texts refuses the sum. -/
theorem any_summand_refused :
    check Library.checks {} [("x", .string)] "TRIM({x}+1)" = .ok .string ∧
      check Library.checks {} [("x", .any)] "TRIM({x}+1)" =
        .error (.check (.wrongType "TRIM" 1 [.string] .number 0)) :=
  ⟨trim_of_text, trim_of_any⟩

/-- The sum that is to blame. -/
theorem check_of_widened_sum :
    check Library.checks {} [("x", .string)] "TRIM({x}+1)" = .ok .string ∧
      ∃ t s, Options.read {} "TRIM({x}+1)" = .ok t ∧ s ∈ t.sums ∧
        s.check Library.checks [("x", .string)] = .ok .string ∧
        s.check Library.checks [("x", .any)] = .ok .number ∧
        ∃ p ∈ s.references, TypeMap.find [("x", .string)] p = .string ∧
          TypeMap.find [("x", .any)] p = .any := by
  have hw : ∀ p, TypeMap.find [("x", .any)] p = TypeMap.find [("x", .string)] p ∨
      TypeMap.find [("x", .any)] p = .any := by
    intro p
    by_cases hp : p = "x"
    · exact .inr (by rw [hp]; rfl)
    · exact .inl (by simp [TypeMap.find, List.lookup, beq_eq_false_iff_ne.mpr hp])
  refine ⟨trim_of_text, ?_⟩
  rcases check_of_widened hw trim_of_text with ⟨r', hr', -⟩ | ⟨hsum, -⟩
  · rw [trim_of_any] at hr'
    cases hr'
  · exact hsum

end Formula
