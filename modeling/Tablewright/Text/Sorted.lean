/-!
# Sorted names

Sets of names as lists in increasing order, by code points.

* `insertName`: one more name in its place; a name that is there already is not repeated.
* `sortNames`: the distinct names of a list in order.
-/

namespace Tablewright.Text

/-- Puts a name in its place, once. -/
def insertName (name : String) : List String → List String
  | [] => [name]
  | other :: rest =>
    if name < other then name :: other :: rest
    else if name = other then other :: rest
    else other :: insertName name rest

def sortNames (names : List String) : List String := names.foldr insertName []

end Tablewright.Text
