import Formula.Term.Basic

/-!
The paths that a term refers to, in the order of their first use.
-/

namespace Formula.Term

mutual

/-- The paths of all references of a term, from left to right. -/
def mentions : Term → List String
  | .literal _ => []
  | .reference t => [path t]
  | .array _ elements => allMentions elements
  | .call _ arguments => allMentions arguments
  | .group inner => inner.mentions
  | .unary _ _ operand => operand.mentions
  | .index base keys => base.mentions ++ allMentions keys
  | .chain _ head links => head.mentions ++ linkMentions links
  | .sequence items => allMentions items

def allMentions : List Term → List String
  | [] => []
  | t :: ts => t.mentions ++ allMentions ts

def linkMentions : List (Token × Term) → List String
  | [] => []
  | (_, t) :: links => t.mentions ++ linkMentions links

end

/-- A list without repetitions, every item at its first place. -/
def firsts (seen : List String) : List String → List String
  | [] => []
  | s :: rest => if seen.contains s then firsts seen rest else s :: firsts (s :: seen) rest

/-- The paths a term refers to, each at its first use. -/
def references (t : Term) : List String := firsts [] t.mentions

end Formula.Term
