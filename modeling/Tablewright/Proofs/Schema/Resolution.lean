import Tablewright.Proofs.Name.Identifier
import Tablewright.Proofs.Schema.Identifiers

/-!
# Resolved names

Camel case moves capitals and drops what an identifier cannot hold.  Of a name in ASCII it keeps every letter and digit
in its place, as letter case stays within ASCII there.  The outcome can be used as it is, so it resolves to itself.

* `letters`: the letters and digits of a text, up to case.
* `letters_camelWords`, `letters_camelCase`: camel case keeps them.
* `Declaration.identifier_stable`: a resolved name is its own identifier.
* `camelCase_resolves`: all of this for every name that is not empty.
-/

namespace Tablewright

open Text (isWordChar upperChar lowerChar upper lower)

namespace Name

/-- The letters and digits of a text, up to case. -/
def letters (cs : List Char) : List Char := (cs.filter isWordChar).map Char.toLower

@[simp] theorem letters_nil : letters [] = [] := rfl

@[simp] theorem letters_append (cs ds : List Char) : letters (cs ++ ds) = letters cs ++ letters ds := by
  simp [letters]

theorem letters_cons (c : Char) (cs : List Char) : letters (c :: cs) = letters [c] ++ letters cs := letters_append [c] cs

theorem letters_flatten (parts : List (List Char)) : letters parts.flatten = parts.flatMap letters := by
  induction parts with
  | nil => rfl
  | cons part rest ih => rw [List.flatten_cons, letters_append, ih, List.flatMap_cons]

/-- What is dropped is no letter. -/
theorem letters_filter {kept : Char → Bool} (cs : List Char) (word : ∀ c ∈ cs, isWordChar c → kept c) :
    letters (cs.filter kept) = letters cs := by
  rw [letters, letters, List.filter_filter]
  refine congrArg (List.map Char.toLower) (List.filter_congr fun c member => ?_)
  cases shape : isWordChar c with
  | false => simp
  | true => simp [word c member shape]

/-! ## Letter case in ASCII -/

def IsAscii (cs : List Char) : Prop := ∀ c ∈ cs, c.toNat < 0x80

variable {c : Char} {cs : List Char}

theorem isWordChar_toUpper (c : Char) : isWordChar c.toUpper = isWordChar c := by
  by_cases small : c.isLower
  · have before : c.isAlpha := by simp [Char.isAlpha, small]
    have after : c.toUpper.isAlpha := by rwa [Char.isAlpha_toUpper_eq_isAlpha]
    rw [isWordChar_of_isAlpha before, isWordChar_of_isAlpha after]
  · rw [Char.toUpper_eq_of_not_isLower small]

theorem isWordChar_toLower (c : Char) : isWordChar c.toLower = isWordChar c := by
  by_cases capital : c.isUpper
  · have before : c.isAlpha := by simp [Char.isAlpha, capital]
    have after : c.toLower.isAlpha := by rwa [Char.isAlpha_toLower_eq_isAlpha]
    rw [isWordChar_of_isAlpha before, isWordChar_of_isAlpha after]
  · rw [Char.toLower_eq_of_not_isUpper capital]

theorem letters_singleton (c : Char) : letters [c] = if isWordChar c then [c.toLower] else [] := by
  cases word : isWordChar c with
  | false => simp [letters, word]
  | true => simp [letters, word]

theorem letters_upperChar (ascii : c.toNat < 0x80) : letters (upperChar c) = letters [c] := by
  rw [upperChar, if_pos ascii, letters_singleton, letters_singleton, isWordChar_toUpper, Char.toLower_toUpper_eq_toLower]

theorem letters_lowerChar (ascii : c.toNat < 0x80) : letters (lowerChar c) = letters [c] := by
  rw [lowerChar, if_pos ascii, letters_singleton, letters_singleton, isWordChar_toLower, Char.toLower_toLower_eq_toLower]

theorem letters_lower (ascii : IsAscii cs) : letters (lower cs) = letters cs := by
  induction cs with
  | nil => rfl
  | cons c rest ih =>
    obtain ⟨here, later⟩ := List.forall_mem_cons.mp ascii
    rw [Text.lower_cons, letters_append, letters_lowerChar here, ih later, ← letters_cons]

theorem letters_capitalizeChars (ascii : IsAscii cs) : letters (Text.capitalizeChars cs) = letters cs := by
  cases cs with
  | nil => rfl
  | cons c rest => rw [Text.capitalizeChars, letters_append, letters_upperChar (ascii c (by simp)), ← letters_cons]

theorem letters_firstWord (ascii : IsAscii cs) : letters (firstWord cs) = letters cs := by
  rw [firstWord]
  split
  · exact letters_lower ascii
  · cases cs with
    | nil => rfl
    | cons c rest => rw [uncapitalizeChars, letters_append, letters_lowerChar (ascii c (by simp)), ← letters_cons]

/-! ## Parts that are joined -/

theorem flatten_piecesFrom (isBreak : Char → Bool) (current cs : List Char) :
    (Text.piecesFrom isBreak current cs).flatten = current ++ cs.filter (!isBreak ·) := by
  -- a piece without characters is left out, which a joined text does not show
  induction cs generalizing current with
  | nil => cases current with
    | nil => rfl
    | cons first more => simp [Text.piecesFrom]
  | cons c rest ih =>
    rw [Text.piecesFrom]
    cases isEnd : isBreak c with
    | true => cases current with
      | nil => simp [ih, isEnd]
      | cons first more => simp [ih, isEnd]
    | false => simp [ih, isEnd]

theorem flatten_segments (cs : List Char) : (segments cs).flatten = cs.filter (!isSeparator ·) :=
  flatten_piecesFrom isSeparator [] cs

theorem isSeparator_eq_false_of_isWordChar (word : isWordChar c) : isSeparator c = false := by
  have hyphen : isWordChar '-' = false := by decide
  have underscore : isWordChar '_' = false := by decide
  rw [isSeparator, Bool.or_eq_false_iff, beq_eq_false_iff_ne, beq_eq_false_iff_ne]
  constructor
  · rintro rfl
    rw [hyphen] at word
    cases word
  · rintro rfl
    rw [underscore] at word
    cases word

theorem letters_segments (cs : List Char) : (segments cs).flatMap letters = letters cs := by
  rw [← letters_flatten, flatten_segments]
  exact letters_filter cs fun c _ word => by simp [isSeparator_eq_false_of_isWordChar word]

theorem isAscii_segment (ascii : IsAscii cs) {segment : List Char} (member : segment ∈ segments cs) :
    IsAscii segment := by
  intro c inside
  have joined : c ∈ (segments cs).flatten := List.mem_flatten.mpr ⟨segment, member, inside⟩
  rw [flatten_segments] at joined
  exact ascii c (List.mem_filter.mp joined).1

theorem letters_camelWords (ascii : IsAscii cs) : letters (camelWords cs) = letters cs := by
  rw [camelWords]
  split
  · exact letters_lower ascii
  · rw [← letters_segments cs]
    have each : ∀ segment ∈ segments cs, IsAscii segment := fun _ member => isAscii_segment ascii member
    cases cut : segments cs with
    | nil => rfl
    | cons first rest =>
      rw [cut, List.forall_mem_cons] at each
      dsimp only
      rw [letters_append, letters_firstWord each.1, List.flatMap_cons, List.flatMap, letters_flatten, List.flatMap_map]
      congr 1
      exact List.flatMap_congr fun segment member => letters_capitalizeChars (each.2 segment member)

/-! ## Guards -/

theorem letters_guardReserved (cs : List Char) : letters (guardReserved cs).toList = letters cs := by
  have underscore : letters ['_'] = [] := by decide
  have guarded : ∀ name : List Char, letters (if isReserved (String.ofList name) then String.ofList (name ++ ['_'])
      else String.ofList name).toList = letters name := by
    intro name
    split
    · rw [String.toList_ofList, letters_append, underscore, List.append_nil]
    · rw [String.toList_ofList]
  refine (guarded _).trans ?_
  cases cs with
  | nil => exact underscore
  | cons c rest =>
    dsimp only
    split
    · rw [letters_cons '_', underscore, List.nil_append]
    · rfl

theorem letters_camelCase {name : String} (ascii : IsAscii name.toList) :
    letters (camelCase name).toList = letters name.toList := by
  rw [camelCase]
  split
  · rfl
  · rw [letters_guardReserved, letters_filter _ fun c _ word => by simp [isIdentifierChar, word],
      letters_camelWords ascii]

/-- Camel case has nothing but letters and digits between its underscores. -/
theorem filter_camelCase (name : String) :
    (camelCase name).toList.filter (· ≠ '_') = (camelCase name).toList.filter isWordChar := by
  refine List.filter_congr fun c member => ?_
  have clean := isIdentifierChar_of_mem_camelCase c member
  rw [isIdentifierChar, Bool.or_eq_true, beq_iff_eq] at clean
  rcases clean with word | rfl
  · rw [word, decide_eq_true_iff]
    rintro rfl
    exact absurd word (by decide)
  · decide

end Name

/-! ## Fields -/

namespace Declaration

variable {d : Declaration}

theorem isFieldIdentifier_identifier (noOverride : given d.nameOverride = none) (named : d.name ≠ "") :
    Name.isFieldIdentifier d.identifier := by
  cases identifier_cases noOverride with
  | inl kept =>
    obtain ⟨valid, same⟩ := kept
    rwa [same]
  | inr cased =>
    rw [cased]
    exact Name.isFieldIdentifier_camelCase named

/-- A field that is named by a resolved name is called by it. -/
theorem identifier_stable (noOverride : given d.nameOverride = none) (named : d.name ≠ "") {again : Declaration}
    (resolved : again.name = d.identifier) (noOverride' : given again.nameOverride = none) :
    again.identifier = d.identifier := by
  rw [identifier, noOverride', resolved]
  exact if_pos (isFieldIdentifier_identifier noOverride named)

end Declaration

/-- Camel case makes an identifier of every name that is not empty, without any other characters than letters, digits and
underscores of ASCII.  It keeps the letters and digits of a name in ASCII, up to case, and has nothing but underscores
besides.  So a field without an override can be called by its identifier, and a field named by it is called the same. -/
theorem Name.camelCase_resolves (name : String) (named : name ≠ "") :
    Name.isFieldIdentifier (Name.camelCase name) ∧
      (∀ c ∈ (Name.camelCase name).toList, c.isAlphanum ∨ c = '_') ∧
      ((∀ c ∈ name.toList, c.toNat < 0x80) →
        ((Name.camelCase name).toList.filter (· ≠ '_')).map Char.toLower =
          (name.toList.filter Char.isAlphanum).map Char.toLower) ∧
      ∀ d : Declaration, d.name = name → given d.nameOverride = none →
        Name.isFieldIdentifier d.identifier ∧
          ∀ again : Declaration, again.name = d.identifier → given again.nameOverride = none →
            again.identifier = d.identifier := by
  refine ⟨isFieldIdentifier_camelCase named, fun c member => ?_, fun ascii => ?_, ?_⟩
  · have clean := isIdentifierChar_of_mem_camelCase c member
    rwa [isIdentifierChar, Bool.or_eq_true, beq_iff_eq] at clean
  · rw [filter_camelCase]
    exact letters_camelCase ascii
  · rintro d rfl noOverride
    exact ⟨Declaration.isFieldIdentifier_identifier noOverride named,
      fun again resolved noOverride' => Declaration.identifier_stable noOverride named resolved noOverride'⟩

/-- A digit in front and a hyphen inside: an underscore is added, and the hyphen is dropped. -/
theorem Name.camelCase_resolves_leadingDigit :
    Name.camelCase "2fa-enabled" = "_2faEnabled" ∧ Name.isFieldIdentifier "_2faEnabled" ∧
      ("_2faEnabled".toList.filter (· ≠ '_')).map Char.toLower =
        ("2fa-enabled".toList.filter Char.isAlphanum).map Char.toLower := by
  have cased : Name.camelCase "2fa-enabled" = "_2faEnabled" := by decide +kernel
  obtain ⟨valid, -, kept, -⟩ := Name.camelCase_resolves "2fa-enabled" (by decide)
  rw [cased] at valid kept
  exact ⟨cased, valid, kept (by simp)⟩

end Tablewright
