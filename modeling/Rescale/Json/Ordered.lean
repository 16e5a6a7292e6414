import Rescale.Json.Basic

/-!
# Ordered Objects

Objects with their members in the order of the names.

Documents that people compare list the members of every object by name. Members
are moved as a whole, so a document says the same before and after.

## Main definitions

* `Json.ordered`: A value whose objects are in order, at every depth.
-/

namespace Rescale

namespace Json

/-- Put a member in front of the first one with a larger name. -/
def insertMember (m : String × Json) : List (String × Json) → List (String × Json)
  | [] => [m]
  | n :: rest => if m.1 ≤ n.1 then m :: n :: rest else n :: insertMember m rest

mutual

/-- A value whose objects have their members in the order of the names. -/
def ordered : Json → Json
  | array items => array (orderedItems items)
  | object members => object (orderedMembers members)
  | leaf => leaf

/-- The elements of an array, each with its objects in order. -/
def orderedItems : List Json → List Json
  | [] => []
  | j :: rest => ordered j :: orderedItems rest

/-- The members of an object in order. -/
def orderedMembers : List (String × Json) → List (String × Json)
  | [] => []
  | (name, j) :: rest => insertMember (name, ordered j) (orderedMembers rest)

end

end Json

end Rescale
