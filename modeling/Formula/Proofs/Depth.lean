import Formula.Proofs.Reading

/-!
The depth of a term: how many operands enclose one another. What is read has at least as many
tokens as it is deep (`Reads.depth_le`), so that a parser with one level more than tokens is never
short of levels.
-/

namespace Formula

namespace Term

mutual

/-- The greatest number of operands that enclose one another, the innermost included. An operator
behind an operand adds none. -/
def depth : Term → Nat
  | .literal _ | .reference _ => 1
  | .array _ elements => depthAll elements + 1
  | .call _ arguments => depthAll arguments + 1
  | .group inner => inner.depth + 1
  | .unary .before _ operand => operand.depth + 1
  | .unary .after _ operand => operand.depth
  | .index base keys => max base.depth (depthAll keys + 1)
  | .chain _ head links => max head.depth (depthLinks links)
  | .sequence items => depthAll items

def depthAll : List Term → Nat
  | [] => 0
  | t :: ts => max t.depth (depthAll ts)

def depthLinks : List (Token × Term) → Nat
  | [] => 0
  | (_, t) :: links => max t.depth (depthLinks links)

end

/-- An array, a group and the literal in it; the operator behind an item adds nothing. -/
example (t : Token) : (array t [group (literal t), unary .after t (literal t)]).depth = 3 := by
  cbv

theorem depthLinks_eq (links : List (Token × Term)) :
    depthLinks links = depthAll (links.map Prod.snd) := by
  induction links with
  | nil => rfl
  | cons link links ih => rw [depthLinks, ih, List.map_cons, depthAll]

@[simp] theorem depth_ofSequence (first : Term) (rest : List Term) :
    (ofSequence first rest).depth = depthAll (first :: rest) := by
  cases rest <;> simp [ofSequence, depth, depthAll]

@[simp] theorem depth_ofChain (tier : Tier) (head : Term) (links : List (Token × Term)) :
    (ofChain tier head links).depth = max head.depth (depthLinks links) := by
  cases links <;> simp [ofChain, depth, depthLinks]

theorem depth_le_ofIndex (base : Term) (keys : List Term) :
    base.depth ≤ (ofIndex base keys).depth := by
  cases keys <;> simp only [ofIndex, depth] <;> omega

theorem depthAll_lt_ofIndex {base : Term} (keys : List Term) (h : 0 < base.depth) :
    depthAll keys < (ofIndex base keys).depth := by
  cases keys <;> simp only [ofIndex, depth, depthAll] <;> omega

theorem depth_ofIndex_le (base : Term) (keys : List Term) :
    (ofIndex base keys).depth ≤ max base.depth (depthAll keys + 1) := by
  cases keys <;> simp only [ofIndex, depth] <;> omega

end Term

namespace Grammar

open Term

def Phrase.depth : Phrase → Nat
  | .expression t | .tier _ t | .atomic t | .primary t => t.depth
  | .list ts | .items ts | .keys ts => depthAll ts
  | .links _ ls => depthLinks ls

@[simp] theorem Phrase.depth_below (tier : Tier) (t : Term) :
    (Phrase.below tier t).depth = t.depth := by
  cases tier <;> rfl

theorem Reads.depth_pos {t : Term} {ts us : List Token} (h : Reads (.primary t) ts us) :
    0 < t.depth := by
  cases h <;> simp [Term.depth]

/-- Every level of depth takes a token. -/
theorem Reads.depth_le {p : Phrase} {ts us : List Token} (h : Reads p ts us) :
    p.depth + us.length ≤ ts.length := by
  induction h with
  | expression _ ih => simpa [Phrase.depth] using ih
  | list _ _ ih ih' => simp only [Phrase.depth, depthAll] at *; omega
  | item _ _ _ ih ih' => simp only [Phrase.depth, depthAll, List.length_cons] at *; omega
  | tier _ _ ih ih' =>
    simp only [Phrase.depth_below] at ih
    simp only [Phrase.depth, depth_ofChain] at *; omega
  | link _ _ _ _ ih ih' =>
    simp only [Phrase.depth_below] at ih
    simp only [Phrase.depth, depthLinks, List.length_cons] at *; omega
  | @atomic base ks _ _ _ hb hk _ ih ih' =>
    have hd := hb.depth_pos
    have := depth_ofIndex_le base ks
    simp only [Phrase.depth] at *
    omega
  | @postfixed base ks _ _ _ _ _ hb hk _ _ _ ih ih' =>
    have hd := hb.depth_pos
    have := depth_ofIndex_le base ks
    simp only [Phrase.depth, Term.depth, List.length_cons] at *
    omega
  | _ =>
    simp only [Phrase.depth, Term.depth, depthAll, depthLinks, List.length_cons] at *
    omega

end Grammar

end Formula
