import Tablewright.Proofs.Access.RecordClass

/-!
# Classes of enums

The constants of an enum are found one after the other, each with respect to those before it.  So they are different, and
the class of the enum binds each of them once.  A value that stands in the list again has another constant there, but its
member is the one of its first constant.

* `constantFor?_text`: the constant of a value is the one at its first place.
* `bindings_enumCls`: each constant is bound once in the class.
* `enumOf_complete`: all of this for every list of values.
-/

namespace Tablewright.Access

open Source (Expr Stmt Program Datum Library ClassDef getAttribute call bindings)
open Name (memberBase IsFirstFree isPackagePart)

variable {p : Program} {t : EnumType}

/-! ## The first constant of a value -/

theorem find?_zip_snd {names values : List String} (lengths : names.length = values.length) (s : String) :
    ((names.zip values).find? (·.2 == s)).map (·.1) = names[values.idxOf s]? := by
  induction values generalizing names with
  | nil =>
    obtain rfl := List.length_eq_zero_iff.mp lengths
    rfl
  | cons value rest ih =>
    cases names with
    | nil => cases lengths
    | cons name names =>
      rw [List.zip_cons_cons, List.find?_cons, List.idxOf_cons]
      cases here : value == s with
      | true => rfl
      | false => exact ih (Nat.succ.inj lengths)

theorem constantFor?_text (lengths : t.constants.length = t.values.length) (s : String) :
    t.constantFor? (.text s) = t.constants[t.values.idxOf s]? := find?_zip_snd lengths s

/-- A value with its first constant is the first member with the value. -/
theorem find?_members {s constant : String} (found : t.constantFor? (.text s) = some constant) :
    t.members.find? (·.2 == s) = some (constant, s) := by
  obtain ⟨c, first, rfl⟩ := Option.map_eq_some_iff.mp found
  obtain rfl : c.2 = s := by simpa using List.find?_some first
  exact first

/-! ## The body of the class -/

/-- With different constants there is one statement for each. -/
theorem bindings_enumCls (distinct : (t.members.map (·.1)).Nodup) {c : String × String} (member : c ∈ t.members) :
    bindings c.1 (enumCls t).body = [Stmt.bind c.1 (Expr.text c.2)] := by
  have others {members : List (String × String)} (absent : c.1 ∉ members.map (·.1)) :
      bindings c.1 (members.map fun c => Stmt.bind c.1 (Expr.text c.2)) = [] := by
    refine Source.bindings_eq_nil fun s inside bound => ?_
    obtain ⟨other, inMembers, rfl⟩ := List.mem_map.mp inside
    have same : c.1 = other.1 := by simpa [Stmt.bind, Stmt.binds] using bound
    exact absent (same ▸ List.mem_map_of_mem inMembers)
  have body : (enumCls t).body = t.members.map fun c => Stmt.bind c.1 (Expr.text c.2) := rfl
  obtain ⟨before, after, split⟩ := List.append_of_mem member
  rw [split, List.map_append, List.map_cons, List.nodup_middle, List.nodup_cons, List.mem_append, not_or] at distinct
  rw [body, split, List.map_append, List.map_cons, Source.bindings_append, others distinct.1.1, List.nil_append,
    ← List.singleton_append, Source.bindings_append, others distinct.1.2]
  simp [bindings, Stmt.bind, Stmt.binds]

/-- A constant starts with a capital. -/
theorem isUpper_head_memberNames {values : List String} {name : String} (member : name ∈ Name.memberNames values) :
    ∃ c rest, name.toList = c :: rest ∧ c.isUpper ∧ ∀ d ∈ rest, d.isUpper ∨ d.isDigit ∨ d = '_' := by
  have letter := Name.head?_ne_underscore_of_mem_memberNames member
  obtain ⟨c, rest, spelled, start, others⟩ := Name.isConstant_of_mem_memberNames member
  refine ⟨c, rest, spelled, ?_, fun d inside => ?_⟩
  · rw [spelled, List.head?_cons, ne_eq, Option.some.injEq] at letter
    simpa [letter] using start
  · have shape := List.all_eq_true.mp others d inside
    simpa [Name.isConstantChar, or_assoc] using shape

/-! ## Enums of fields -/

/-- The values of a field each get one constant, in order: the first name that is free after those before, whatever comes
later.  The names are different identifiers of capitals, digits and underscores behind a capital, the class of the enum
binds each of them once, and each value has the constant of its first place, which the class gives for it. -/
theorem enumOf_complete (L : Library) (owner : String) (d : Declaration)
    (emitted : p.module? (enumOf owner d).name = some (enumModule (enumOf owner d))) :
    (enumOf owner d).constants.length = d.enumValues.length ∧ (enumOf owner d).constants.Nodup ∧
      (∀ name ∈ (enumOf owner d).constants, isPackagePart name ∧
        ∃ c rest, name.toList = c :: rest ∧ c.isUpper ∧ ∀ x ∈ rest, x.isUpper ∨ x.isDigit ∨ x = '_') ∧
      (∀ before value after, d.enumValues = before ++ value :: after →
        ∃ name, Name.memberNames before ++ [name] <+: (enumOf owner d).constants ∧
          IsFirstFree (Name.memberNames before) (memberBase value) (fun n => s!"{memberBase value}_{n}") name) ∧
      (∀ later, (enumOf owner d).constants <+: Name.memberNames (d.enumValues ++ later)) ∧
      p.class? [(enumOf owner d).name] = some (enumCls (enumOf owner d)) ∧
      (∀ c ∈ (enumOf owner d).members,
        bindings c.1 (enumCls (enumOf owner d)).body = [Stmt.bind c.1 (Expr.text c.2)]) ∧
      ∀ value ∈ d.enumValues, ∃ constant,
        (enumOf owner d).constants[d.enumValues.idxOf value]? = some constant ∧
          (enumOf owner d).constantFor? (.text value) = some constant ∧
          getAttribute p (.cls [(enumOf owner d).name] : Datum L) constant =
            pure (.member (enumOf owner d).name constant value) ∧
          call p (.cls [(enumOf owner d).name] : Datum L) [.text value] [] =
            pure (.member (enumOf owner d).name constant value) := by
  have lengths : (enumOf owner d).constants.length = d.enumValues.length := Name.length_memberNames _
  have distinct : ((enumOf owner d).members.map (·.1)).Nodup := by
    rw [enumOf_constants]
    exact Name.memberNames_nodup _
  have defined := class_enumCls emitted
  refine ⟨lengths, Name.memberNames_nodup _, fun name member => ?_, fun before value after split => ?_,
    Name.memberNames_append d.enumValues, defined, fun c member => bindings_enumCls distinct member,
    fun value member => ?_⟩
  · exact ⟨(Name.isConstant_of_mem_memberNames member).isPackagePart, isUpper_head_memberNames member⟩
  · have names : (enumOf owner d).constants = Name.memberNames (before ++ value :: after) :=
      congrArg Name.memberNames split
    rw [names]
    exact Name.memberNames_split before value after
  -- the constant at the first place of a value is the one that a search by value finds
  · have bound : d.enumValues.idxOf value < (enumOf owner d).constants.length :=
      lengths ▸ List.idxOf_lt_length_of_mem member
    have place : (enumOf owner d).constants[d.enumValues.idxOf value]? =
        some (enumOf owner d).constants[d.enumValues.idxOf value] := List.getElem?_eq_getElem bound
    have found := (constantFor?_text lengths value).trans place
    have first := find?_members found
    have gives := getAttribute_enumCls (L := L) defined distinct (List.mem_of_find?_eq_some first) first
    have called := call_enumCls (L := L) defined (c := (_, value)) first
    exact ⟨_, place, found, gives, called⟩

/-- The third value wishes for the constant of the first one, and then for that of the second one. -/
theorem enumOf_complete_repeated :
    let d := { bareField "state" "string" with enumValues := ["a", "a_2", "a"] }.toDeclaration
    let e := enumOf "Order" d
    e.constants = ["A", "A_2", "A_3"] ∧
      call ⟨fun _ => some (enumModule e)⟩ (.cls [e.name] : Datum Library.plain) [.text "a"] [] =
        pure (.member e.name "A" "a") := by
  intro d e
  have names : e.constants = ["A", "A_2", "A_3"] := by decide +kernel
  obtain ⟨constant, place, -, -, gives⟩ := (enumOf_complete (p := ⟨fun _ => some (enumModule e)⟩) Library.plain "Order" d
    rfl).2.2.2.2.2.2.2 "a" List.mem_cons_self
  obtain rfl : constant = "A" := by
    have first : e.constants[0]? = some constant := place
    rw [names] at first
    exact (Option.some.inj first).symm
  exact ⟨names, gives⟩

end Tablewright.Access
