import Switchyard.Json.Value

/-!
# What values name

Two values name the same thing if their keys are equal (`Json.key`): a truth value counts as the
number one or zero, numbers are compared by size whether or not they are written with a point, lists
item by item, and objects whatever the order of their members. Only scalars can be looked up.
-/

namespace Switchyard.Json

/-- Whether a value is neither a list nor an object. -/
def isScalar : Json → Bool
  | .arr _ | .obj _ => false
  | _ => true

/-- Whether a value is a number or a truth value. -/
def isNumber : Json → Bool
  | .int _ | .real _ | .bool _ => true
  | _ => false

/-- Members in the order of their names with one more among them. -/
def insertMember (entry : String × Json) : List (String × Json) → List (String × Json)
  | [] => [entry]
  | other :: rest =>
    if other.1 < entry.1 then other :: insertMember entry rest else entry :: other :: rest

/-- The key of a number. -/
def realKey (x : Binary64) : Json :=
  if x.isNaN || x.isInfinite || !x.isWhole then .real x else .int x.truncate

mutual

/-- The form in which a value is compared with others. -/
def key : Json → Json
  | .null => .null
  | .bool b => .int (if b then 1 else 0)
  | .int n => .int n
  | .real x => realKey x
  | .str s => .str s
  | .arr items => .arr (keys items)
  | .obj members => .obj (memberKeys members)

/-- The keys of the items of a list. -/
def keys : List Json → List Json
  | [] => []
  | item :: items => item.key :: keys items

/-- The keys of the members of an object, in the order of their names. -/
def memberKeys : List (String × Json) → List (String × Json)
  | [] => []
  | (name, value) :: members => insertMember (name, value.key) (memberKeys members)

end

/-- The size of a number: the sign of an infinity, or zero and a fraction. What is not a number has
none. -/
def size? : Json → Option (Int × Int × Nat)
  | .int n => some (0, n, 1)
  | .bool b => some (0, if b then 1 else 0, 1)
  | .real x =>
    let sign : Int := if x.isNegative then -1 else 1
    if x.isNaN then none
    else if x.isInfinite then some (sign, 0, 1)
    else
      let (n, d) := x.magnitudeFraction
      some (0, sign * n, d)
  | _ => none

/-- Whether one number is below another. -/
def numberBelow (a b : Json) : Bool :=
  match size? a, size? b with
  | some (r, n, d), some (s, m, e) => r < s || (r = s && n * e < m * d)
  | _, _ => false

/-- Whether one number is at most another. -/
def numberAtMost (a b : Json) : Bool :=
  (size? a).isSome && (size? b).isSome && !numberBelow b a

end Switchyard.Json
