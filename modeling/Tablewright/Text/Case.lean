import Tablewright.Text.CaseTable

/-!
# Letter case

Upper and lower case of whole texts, character by character, with the full mappings: one character
may become several.

* `upperChar`, `lowerChar`, `titleChar`: the forms of one character, the last one at the front of a word.
* `upper`, `lower`: the forms of a text.
* `capitalize`: a text with its first character in upper case and the rest untouched.
-/

namespace Tablewright.Text

/-- The image of a code point under the first run that holds it. -/
def CaseRun.image? (runs : List CaseRun) (code : Nat) : Option Nat :=
  (runs.find? fun run =>
    run.first ≤ code && code ≤ run.last && (code - run.first) % run.stride == 0).map
      fun run => ((code : Int) + run.shift).toNat

def upperChar (c : Char) : List Char :=
  if c.toNat < 0x80 then [c.toUpper]
  else match upperExpansions.lookup c.toNat with
    | some codes => codes.map Char.ofNat
    | none => [((CaseRun.image? upperRuns c.toNat).map Char.ofNat).getD c]

def lowerChar (c : Char) : List Char :=
  if c.toNat < 0x80 then [c.toLower]
  else match lowerExpansions.lookup c.toNat with
    | some codes => codes.map Char.ofNat
    | none => [((CaseRun.image? lowerRuns c.toNat).map Char.ofNat).getD c]

/-- The forms at the front of a word of characters that have one of their own there. -/
def titleForms : List (Nat × List Nat) :=
  [(0x149, [0x2bc, 0x4e]), (0x1c4, [0x1c5]), (0x1c5, [0x1c5]), (0x1c6, [0x1c5]), (0x1c7, [0x1c8]), (0x1c8, [0x1c8]),
   (0x1c9, [0x1c8]), (0x1ca, [0x1cb]), (0x1cb, [0x1cb]), (0x1cc, [0x1cb]), (0x1f1, [0x1f2]), (0x1f2, [0x1f2]),
   (0x1f3, [0x1f2]), (0x1fb2, [0x1fba, 0x345]), (0x1fb3, [0x1fbc]), (0x1fb4, [0x386, 0x345]),
   (0x1fb7, [0x391, 0x342, 0x345]), (0x1fbc, [0x1fbc]), (0x1fc2, [0x1fca, 0x345]), (0x1fc3, [0x1fcc]),
   (0x1fc4, [0x389, 0x345]), (0x1fc7, [0x397, 0x342, 0x345]), (0x1fcc, [0x1fcc]), (0x1ff2, [0x1ffa, 0x345]),
   (0x1ff3, [0x1ffc]), (0x1ff4, [0x38f, 0x345]), (0x1ff7, [0x3a9, 0x342, 0x345]), (0x1ffc, [0x1ffc])]

/-- The form of a character at the front of a word in small letters: Georgian letters keep theirs, Greek letters with
a small iota get a capital with one. -/
def titleChar (c : Char) : List Char :=
  let code := c.toNat
  if code < 0x80 then [c.toUpper]
  else if 0x10d0 ≤ code && code ≤ 0x10ff then [c]
  else if 0x1f80 ≤ code && code ≤ 0x1faf then [Char.ofNat (code - code % 16 + 8 + code % 8)]
  else match titleForms.lookup code with
    | some codes => codes.map Char.ofNat
    | none => match upperChar c with
      | first :: rest => first :: rest.flatMap lowerChar
      | [] => []

def upper (cs : List Char) : List Char := cs.flatMap upperChar

def lower (cs : List Char) : List Char := cs.flatMap lowerChar

/-- A text whose first character is in upper case. -/
def capitalizeChars : List Char → List Char
  | [] => []
  | c :: rest => upperChar c ++ rest

/-- A text whose first character is in upper case. -/
def capitalize (s : String) : String := String.ofList (capitalizeChars s.toList)

@[simp] theorem upper_nil : upper [] = [] := rfl

@[simp] theorem upper_cons (c : Char) (cs : List Char) : upper (c :: cs) = upperChar c ++ upper cs := by
  simp [upper]

@[simp] theorem upper_append (cs ds : List Char) : upper (cs ++ ds) = upper cs ++ upper ds := by
  simp [upper]

@[simp] theorem lower_nil : lower [] = [] := rfl

@[simp] theorem lower_cons (c : Char) (cs : List Char) : lower (c :: cs) = lowerChar c ++ lower cs := by
  simp [lower]

@[simp] theorem lower_append (cs ds : List Char) : lower (cs ++ ds) = lower cs ++ lower ds := by
  simp [lower]

end Tablewright.Text
