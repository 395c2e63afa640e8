/-!
JSON documents. Integers of sixty-four bits are kept apart from other numbers, and an object keeps
its members in the order of the text, repeated names included.
-/

namespace Formula

inductive Json where
  | null
  | boolean (value : Bool)
  | integer (value : Int)
  | number (value : Float)
  | string (value : String)
  | array (items : List Json)
  | object (members : List (String × Json))

instance : Inhabited Json := ⟨.null⟩

namespace Json

/-- The value of a member of an object; of a repeated name the last. -/
def member? (name : String) (members : List (String × Json)) : Option Json :=
  members.reverse.lookup name

end Json

end Formula
