/-!
# Fresh names

The search for a name that is not taken yet: the wished name itself, then the same name with a number
from two on.

* `fresh`: the first candidate that is not taken.
* `freshAll`: a list of names, each made fresh with respect to those before it.
-/

namespace Tablewright.Name

/-- The first of `candidate start, candidate (start + 1), …` that is not taken; at most `tries` candidates
are passed over. -/
def firstFree (taken : List String) (candidate : Nat → String) : (tries start : Nat) → String
  | 0, start => candidate start
  | tries + 1, start =>
    if taken.contains (candidate start) then firstFree taken candidate tries (start + 1)
    else candidate start

/-- A name that is not taken: `base`, or else the first free `numbered n` with `n` from two on. Of more
distinct candidates than there are taken names one is free. -/
def fresh (taken : List String) (base : String) (numbered : Nat → String) : String :=
  if taken.contains base then firstFree taken numbered taken.length 2 else base

/-- The names for several wishes in order; `taken` grows by each. -/
def freshAll (numbered : String → Nat → String) (taken : List String) : List String → List String
  | [] => []
  | base :: rest =>
    let name := fresh taken base (numbered base)
    name :: freshAll numbered (name :: taken) rest

end Tablewright.Name
