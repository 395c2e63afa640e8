import Formula.Library.Function

/-!
The logical functions. All arguments are values already; nothing is skipped.
-/

namespace Formula.Library

def all : Body := fun args => .ok (.boolean (args.all Value.isTruthy))

def any : Body := fun args => .ok (.boolean (args.any Value.isTruthy))

def not : Body := fun args => .ok (.boolean !(argument args 0).isTruthy)

def odd : Body := fun args => .ok (.boolean (args.countP Value.isTruthy % 2 = 1))

def choose : Body := fun args =>
  .ok (argument args (if (argument args 0).isTruthy then 1 else 2))

/-- The value behind the first truthy condition of a list of conditions and values. -/
def firstTrue : List Value → Value
  | condition :: v :: rest => if condition.isTruthy then v else firstTrue rest
  | _ => .undefined

def chooseFirst : Body := fun args => .ok (firstTrue args)

def constant (b : Bool) : Body := fun _ => .ok (.boolean b)

def condition : List TypeTag := [.boolean, .number]

def logic : List Function :=
  [define "AND" (((Signature.returning .boolean).atLeast 2).takingOnly condition) all,
   define "OR" (((Signature.returning .boolean).atLeast 2).takingOnly condition) any,
   define "NOT" (((Signature.returning .boolean).exactly 1).takingOnly [.boolean]) not,
   define "XOR" (((Signature.returning .boolean).atLeast 2).takingOnly condition) odd,
   define "IF"
    (((Signature.returning .any).exactly 3).taking (.positional [.oneOf condition] .anything))
    choose,
   define "IFS"
    ((((Signature.returning .any).atLeast 2).optionally 252).taking
      (.alternating (.oneOf condition) .anything))
    chooseFirst,
   define "TRUE" ((Signature.returning .boolean).atMost 0) (constant true),
   define "FALSE" ((Signature.returning .boolean).atMost 0) (constant false)]

end Formula.Library
