import Tablewright.Proofs.Access.RoundTrip

/-!
# Lists are converted element by element

The conversions of a list go through its elements or copy the list, and decide this by two different conditions.  The one
of the stored form looks at the whole type of the elements, so a copied list has elements that are stored as they are.
The one of reading looks no deeper than the elements themselves: a list of lists is copied even where reading would change
what is in the inner lists.

* `Expr.targets`: the variables of comprehensions; those of a conversion are different at every depth.
* `toStorage_agree`, `fromStorage_agree`: what a conversion comes to depends on the value only.
* `Shaped`: values with lists and sets where the type has them.
* `conversions_elementwise`: a list is converted like its elements, but for lists whose elements are not looked into.
-/

namespace Tablewright

namespace Source

/-! ## Variables of comprehensions -/

mutual

/-- The variables of the comprehensions in an expression. -/
def Expr.targets : Expr → List String
  | .name _ | .constant _ => []
  | .attr value _ => value.targets
  | .subscript value index => value.targets ++ index.targets
  | .call callee args keywords => callee.targets ++ (Expr.targetsAll args ++ Keyword.targetsAll keywords)
  | .tuple items => Expr.targetsAll items
  | .list items => Expr.targetsAll items
  | .dict entries => Entry.targetsAll entries
  | .comprehension _ element target source => source.targets ++ target :: element.targets
  | .compare left _ right => left.targets ++ right.targets
  | .not operand => operand.targets
  | .or left right => left.targets ++ right.targets
  | .conditional body test orelse => body.targets ++ (test.targets ++ orelse.targets)
  | .formatted parts => Part.targetsAll parts

def Expr.targetsAll : List Expr → List String
  | [] => []
  | e :: rest => e.targets ++ Expr.targetsAll rest

def Keyword.targetsAll : List Keyword → List String
  | [] => []
  | .mk _ value :: rest => value.targets ++ Keyword.targetsAll rest

def Entry.targetsAll : List Entry → List String
  | [] => []
  | .mk key value :: rest => key.targets ++ value.targets ++ Entry.targetsAll rest

def Part.targetsAll : List Part → List String
  | [] => []
  | .text _ :: rest => Part.targetsAll rest
  | .field value _ :: rest => value.targets ++ Part.targetsAll rest

end

@[simp] theorem Expr.targets_apply (function : String) (arg : Expr) :
    (Expr.apply function [arg]).targets = arg.targets := by
  simp [Expr.apply, Expr.targets, Expr.targetsAll, Keyword.targetsAll]

@[simp] theorem Expr.targets_method (receiver : Expr) (name : String) (args : List Expr) :
    (Expr.method receiver name args).targets = receiver.targets ++ Expr.targetsAll args := by
  simp [Expr.method, Expr.targets, Keyword.targetsAll]

theorem Outcome.mapM_congr {L : Library} {α β : Type} {f g : α → Outcome L β} {items : List α}
    (same : ∀ a ∈ items, f a = g a) : items.mapM f = items.mapM g := by
  induction items with
  | nil => rfl
  | cons a rest ih =>
    obtain ⟨first, others⟩ := List.forall_mem_cons.mp same
    rw [List.mapM_cons, List.mapM_cons, first, ih others]

end Source

namespace Access

open Source (Expr Program Frame Datum Library Outcome eval readName)

variable {L : Library} {p : Program} {σ τ : Frame L} {type : TypeRef}

/-! ## No variable stands inside another one of its name -/

theorem elementName_injective : elementName.Injective := by
  have numbered : ∀ n : Nat, s!"element{n}" = "element" ++ toString n := fun _ => rfl
  have some : ∀ n : Nat, "element" ≠ "element" ++ toString n := by
    intro n same
    have chars := congrArg String.toList same
    simp [Nat.toString_eq_repr, Nat.toList_repr] at chars
  intro m n same
  unfold elementName at same
  rw [numbered, numbered] at same
  split at same
  · split at same
    · omega
    · exact absurd same (some n)
  · split at same
    · exact absurd same.symm (some m)
    · exact Nat.repr_injective ((String.append_right_inj "element").mp same)

def elementNames (depth count : Nat) : List String := (List.range' depth count).map elementName

theorem elementNames_nodup (depth count : Nat) : (elementNames depth count).Nodup :=
  (List.nodup_range' 1).map elementName_injective

theorem elementNames_succ (depth count : Nat) :
    elementNames depth (count + 1) = elementName depth :: elementNames (depth + 1) count := by
  rw [elementNames, List.range'_succ, List.map_cons, elementNames]

/-- Every comprehension of a stored form has the variable of its depth. -/
theorem toStorage_targets (depth : Nat) (type : TypeRef) (value : Expr) :
    ∃ count, (toStorage depth type value).targets = value.targets ++ elementNames depth count := by
  induction type generalizing depth value with
  | scalar kind => cases kind <;> exact ⟨0, by simp [toStorage, decimalOf, elementNames, Expr.targetsAll]⟩
  | list element ih =>
    rw [toStorage]
    split
    · obtain ⟨count, inner⟩ := ih (depth + 1) (.name (elementName depth))
      refine ⟨count + 1, ?_⟩
      rw [Expr.targets, inner, Expr.targets, List.nil_append, elementNames_succ]
    · exact ⟨0, by simp [elementNames]⟩
  | set element =>
    rw [toStorage]
    split
    · exact ⟨1, by simp [Expr.targets, decimalOf, elementNames]⟩
    · exact ⟨0, by simp [elementNames]⟩
  | _ => exact ⟨0, by simp [toStorage, elementNames, Expr.targets, Expr.targetsAll]⟩

theorem fromStorage_targets (depth : Nat) (type : TypeRef) (value : Expr) :
    ∃ count, (fromStorage depth type value).targets = value.targets ++ elementNames depth count := by
  induction type generalizing depth value with
  | list element ih =>
    rw [fromStorage]
    split
    · obtain ⟨count, inner⟩ := ih (depth + 1) (.name (elementName depth))
      refine ⟨count + 1, ?_⟩
      rw [Expr.targets, inner, Expr.targets, List.nil_append, elementNames_succ]
    · exact ⟨0, by simp [elementNames]⟩
  | scalar kind => cases kind <;> exact ⟨0, by simp [fromStorage, elementNames, Expr.targets, Expr.targetsAll]⟩
  | _ => exact ⟨0, by simp [fromStorage, elementNames, Expr.targets, Expr.targetsAll]⟩

/-! ## Conversions depend on the value only -/

theorem decimalOf_agree (reads : Reads p σ type) (reads' : Reads p τ type) (number : .number ∈ scalars type)
    {value other : Expr} {v : Datum L} (evaluates : eval p σ value = pure v) (evaluates' : eval p τ other = pure v) :
    eval p σ (decimalOf value) = eval p τ (decimalOf other) := by
  have applied : ∀ {ρ : Frame L} {arg : Expr}, Reads p ρ type → eval p ρ arg = pure v →
      eval p ρ (decimalOf arg) = (do
        let text ← Source.call p (.builtin "str") [v] []
        Source.call p (.imported "Decimal") [text] []) := by
    intro ρ arg reads evaluates
    rw [← Source.eval_apply reads.str evaluates]
    simp [decimalOf, Expr.apply, reads.decimal number]
  rw [applied reads evaluates, applied reads' evaluates']

/-- Comprehensions over one list come to the same if their elements do. -/
theorem comprehension_agree {shape : Source.Shape} {element element' source source' : Expr} {target target' : String}
    {v : Datum L} (evaluates : eval p σ source = pure v) (evaluates' : eval p τ source' = pure v)
    (agree : ∀ w, eval p (σ.put target w) element = eval p (τ.put target' w) element') :
    eval p σ (.comprehension shape element target source) = eval p τ (.comprehension shape element' target' source') := by
  rw [Source.eval_comprehension, Source.eval_comprehension, evaluates, evaluates', pure_bind, pure_bind]
  refine bind_congr fun members => ?_
  rw [Outcome.mapM_congr fun w _ => agree w]

theorem eval_name_put (name : String) (v : Datum L) : eval p (σ.put name v) (.name name) = pure v := by
  rw [Source.eval_name, Source.readName_put, if_pos rfl]

/-- The stored form of a value is the same in all scopes and at all depths. -/
theorem toStorage_agree (clear : Clear type) (reads : Reads p σ type) (reads' : Reads p τ type) {depth n : Nat}
    {value other : Expr} {v : Datum L} (evaluates : eval p σ value = pure v) (evaluates' : eval p τ other = pure v) :
    eval p σ (toStorage depth type value) = eval p τ (toStorage n type other) := by
  induction type generalizing σ τ depth n value other v with
  | scalar kind =>
    cases kind with
    | number => exact decimalOf_agree reads reads' (by simp [scalars]) evaluates evaluates'
    | timestamp => rw [toStorage, toStorage, Source.eval_method evaluates, Source.eval_method evaluates']
    | string | boolean => simp [toStorage, evaluates, evaluates']
  | list element ih =>
    rw [toStorage, toStorage]
    split
    · refine comprehension_agree evaluates evaluates' fun w => ?_
      exact ih clear (reads.element.inside depth w (clear depth)) (reads'.element.inside n w (clear n))
        (eval_name_put _ w) (eval_name_put _ w)
    · rw [Source.eval_apply reads.list evaluates, Source.eval_apply reads'.list evaluates']
  | set element =>
    rw [toStorage, toStorage]
    split
    · rename_i number
      refine comprehension_agree evaluates evaluates' fun w => ?_
      exact decimalOf_agree (reads.inside depth w (clear depth)) (reads'.inside n w (clear n)) (by simp [scalars, number])
        (eval_name_put _ w) (eval_name_put _ w)
    · rw [Source.eval_apply reads.set evaluates, Source.eval_apply reads'.set evaluates']
  | record name => rw [toStorage, toStorage, Source.eval_method evaluates, Source.eval_method evaluates']
  | enum name => rw [toStorage, toStorage, Source.eval_attr, Source.eval_attr, evaluates, evaluates']
  | any => rw [toStorage, toStorage, evaluates, evaluates']

/-- The reading of a stored form is the same in all scopes and at all depths. -/
theorem fromStorage_agree (clear : Clear type) (reads : Reads p σ type) (reads' : Reads p τ type) {depth n : Nat}
    {value other : Expr} {v : Datum L} (evaluates : eval p σ value = pure v) (evaluates' : eval p τ other = pure v) :
    eval p σ (fromStorage depth type value) = eval p τ (fromStorage n type other) := by
  induction type generalizing σ τ depth n value other v with
  | scalar kind =>
    cases kind with
    | timestamp =>
      have datetime := (Source.eval_name "datetime").trans (reads.datetime (by simp [scalars]))
      have datetime' := (Source.eval_name "datetime").trans (reads'.datetime (by simp [scalars]))
      rw [fromStorage, fromStorage, Source.eval_method_one datetime evaluates, Source.eval_method_one datetime' evaluates']
    | string | number | boolean => simp [fromStorage, evaluates, evaluates']
  | list element ih =>
    rw [fromStorage, fromStorage]
    split
    · refine comprehension_agree evaluates evaluates' fun w => ?_
      exact ih clear (reads.element.inside depth w (clear depth)) (reads'.element.inside n w (clear n))
        (eval_name_put _ w) (eval_name_put _ w)
    · rw [Source.eval_apply reads.list evaluates, Source.eval_apply reads'.list evaluates']
  | set element => rw [fromStorage, fromStorage, Source.eval_apply reads.set evaluates, Source.eval_apply reads'.set evaluates']
  | record name =>
    have cls := (Source.eval_name name).trans (reads.types name (by simp [TypeRef.recordNames]))
    have cls' := (Source.eval_name name).trans (reads'.types name (by simp [TypeRef.recordNames]))
    rw [fromStorage, fromStorage, Source.eval_method_one cls evaluates, Source.eval_method_one cls' evaluates']
  | enum name =>
    rw [fromStorage, fromStorage, Source.eval_apply (reads.types name (by simp [TypeRef.enumNames])) evaluates,
      Source.eval_apply (reads'.types name (by simp [TypeRef.enumNames])) evaluates']
  | any => rw [fromStorage, fromStorage, evaluates, evaluates']

/-! ## Lists and their elements -/

/-- A value has lists where its type has them, and sets with different members where its type has sets. -/
def Shaped : TypeRef → Datum L → Prop
  | .list element, v => ∃ items, v = .list items ∧ ∀ w ∈ items, Shaped element w
  | .set _, v => ∃ items, v = .set items ∧ (∀ w ∈ items, w.isScalar) ∧ items.Pairwise fun v w => v.same w = false
  | .scalar _, _ | .record _, _ | .enum _, _ | .any, _ => True

theorem toStorage_plain (plain : needsConversion type = false) (reads : Reads p σ type) {depth : Nat} {value : Expr}
    {v : Datum L} (shaped : Shaped type v) (evaluates : eval p σ value = pure v) :
    eval p σ (toStorage depth type value) = pure v := by
  cases type with
  | scalar kind =>
    cases kind with
    | number | timestamp => cases plain
    | string | boolean => simpa [toStorage] using evaluates
  | list element =>
    obtain ⟨items, rfl, -⟩ := shaped
    rw [needsConversion] at plain
    rw [toStorage, if_neg (by simp [plain]), reads.call_list evaluates]
  | set element =>
    obtain ⟨items, rfl, scalars, different⟩ := shaped
    have other : element ≠ .number := by simpa [needsConversion] using plain
    rw [toStorage, if_neg other, reads.call_set evaluates scalars different]
  | record name | enum name => cases plain
  | any => rw [toStorage, evaluates]

/-- Whether a list of such values is copied when it is read, although the values themselves are read differently from how
they are stored. -/
def overlooked : TypeRef → Bool
  | .list (.record _) | .list (.enum _) | .list (.scalar .timestamp) => true
  | _ => false

theorem fromStorage_plain (whole : readsElementwise type = false) (noticed : overlooked type = false)
    (reads : Reads p σ type) {depth : Nat} {value : Expr} {v : Datum L} (shaped : Shaped type v)
    (evaluates : eval p σ value = pure v) : eval p σ (fromStorage depth type value) = pure v := by
  cases type with
  | scalar kind =>
    cases kind with
    | timestamp => cases whole
    | string | number | boolean => simpa [fromStorage] using evaluates
  | list element =>
    obtain ⟨items, rfl, members⟩ := shaped
    by_cases elementwise : readsElementwise element
    · -- only sets are left, and a set is read by making a set of it
      obtain ⟨kind, rfl⟩ : ∃ kind, element = .set kind := by
        cases element with
        | set kind => exact ⟨kind, rfl⟩
        | scalar kind => cases kind <;> simp [overlooked, readsElementwise] at noticed elementwise
        | _ => simp [overlooked, readsElementwise] at noticed elementwise
      rw [fromStorage, if_pos elementwise]
      refine Source.eval_comprehension_of evaluates rfl (List.forall₂_same.mpr fun w member => ?_)
      obtain ⟨others, rfl, scalars, different⟩ := members w member
      exact (reads.element.inside depth _ (by simp [TypeRef.recordNames, TypeRef.enumNames])).call_set
        (eval_name_put _ _) scalars different
    · rw [fromStorage, if_neg elementwise, reads.call_list evaluates]
  | set | record | enum => cases whole
  | any => rw [fromStorage, evaluates]

theorem eval_listComprehension {value element : Expr} {vs : List (Datum L)} {target : String}
    (evaluates : eval p σ value = pure (.list vs)) : eval p σ (.comprehension .list element target value) = (do
      let ds ← vs.mapM fun v => eval p (σ.put target v) element
      pure (.list ds)) := by
  rw [Source.eval_comprehension, evaluates, pure_bind]
  rfl

/-- A list is what its elements come to, where they come to themselves. -/
theorem mapM_unchanged {f : Datum L → Outcome L (Datum L)} {vs : List (Datum L)} (same : ∀ v ∈ vs, f v = pure v) :
    (do let ds ← vs.mapM f; pure (.list ds)) = (pure (.list vs) : Outcome L (Datum L)) := by
  rw [Outcome.mapM_of_forall₂ (List.forall₂_same.mpr same), pure_bind]

/-- A list is stored like its elements one by one, and read like them one by one unless its elements are overlooked; then
it is read as it is.  No comprehension in these expressions has the variable of another one. -/
theorem conversions_elementwise (clear : Clear type) {vs : List (Datum L)} {value : Expr} {x : String} (depth n : Nat)
    (reads : Reads p σ (.list type)) (evaluates : eval p σ value = pure (.list vs)) (shaped : ∀ v ∈ vs, Shaped type v)
    (free : ∀ v ∈ vs, Reads p (σ.put x v) type) :
    eval p σ (toStorage depth (.list type) value) = (do
        let ds ← vs.mapM fun v => eval p (σ.put x v) (toStorage n type (.name x))
        pure (.list ds)) ∧
      eval p σ (fromStorage depth (.list type) value) = (if overlooked type then pure (.list vs) else do
        let ws ← vs.mapM fun v => eval p (σ.put x v) (fromStorage n type (.name x))
        pure (.list ws)) ∧
      (value.targets = [] → (toStorage depth (.list type) value).targets.Nodup ∧
        (fromStorage depth (.list type) value).targets.Nodup) := by
  refine ⟨?_, ?_, fun none => ⟨?_, ?_⟩⟩
  · rw [toStorage]
    -- without a conversion the elements are copied, which `shaped` says is no change
    by_cases converts : needsConversion type
    · rw [if_pos converts, eval_listComprehension evaluates, Outcome.mapM_congr fun v member => ?_]
      exact toStorage_agree clear (reads.element.inside depth v (clear depth)) (free v member) (eval_name_put _ v)
        (eval_name_put _ v)
    · have plain : needsConversion type = false := Bool.eq_false_iff.mpr converts
      rw [if_neg converts, reads.call_list evaluates, mapM_unchanged fun v member => ?_]
      exact toStorage_plain plain (free v member) (shaped v member) (eval_name_put _ v)
  · rw [fromStorage]
    -- a list of lists is not read by elements, although its elements are written by them
    by_cases elementwise : readsElementwise type
    · have noticed : overlooked type = false := by
        cases type with
        | list => cases elementwise
        | _ => rfl
      rw [if_pos elementwise, noticed, if_neg Bool.false_ne_true, eval_listComprehension evaluates,
        Outcome.mapM_congr fun v member => ?_]
      exact fromStorage_agree clear (reads.element.inside depth v (clear depth)) (free v member) (eval_name_put _ v)
        (eval_name_put _ v)
    · have whole : readsElementwise type = false := Bool.eq_false_iff.mpr elementwise
      rw [if_neg elementwise, reads.call_list evaluates]
      split
      · rfl
      · rename_i noticed
        rw [mapM_unchanged fun v member => ?_]
        exact fromStorage_plain whole (Bool.eq_false_iff.mpr noticed) (free v member) (shaped v member) (eval_name_put _ v)
  · obtain ⟨count, named⟩ := toStorage_targets depth (.list type) value
    rw [named, none, List.nil_append]
    exact elementNames_nodup depth count
  · obtain ⟨count, named⟩ := fromStorage_targets depth (.list type) value
    rw [named, none, List.nil_append]
    exact elementNames_nodup depth count

/-- A scope in which nothing is known but points in time. -/
def datesFrame : Frame Library.plain := .top [.importFrom "datetime" ["datetime"]]

theorem datesFrame_reads (none : type.recordNames ++ type.enumNames = []) (noDecimal : .number ∉ scalars type) :
    Reads ⟨fun _ => Option.none⟩ datesFrame type := by
  refine ⟨?_, ?_, ?_, fun number => absurd number noDecimal, fun _ => ?_, fun name mentioned => ?_⟩
  · rw [readName]
    rfl
  · rw [readName]
    rfl
  · rw [readName]
    rfl
  · rw [readName]
    rfl
  · rw [none] at mentioned
    cases mentioned

def leapDay : Library.plain.Time := "2024-02-29"

/-- The names in which a value and the elements of a list are looked up are free. -/
theorem datesFrame_put (none : type.recordNames ++ type.enumNames = []) (noDecimal : .number ∉ scalars type)
    (v w : Datum Library.plain) : Reads ⟨fun _ => Option.none⟩ (datesFrame.put "days" v) type ∧
      Reads ⟨fun _ => Option.none⟩ ((datesFrame.put "days" v).put "day" w) type := by
  have free : ∀ name, name ∉ type.recordNames ++ type.enumNames := fun name => none ▸ List.not_mem_nil
  have reads := (datesFrame_reads none noDecimal).put v (by decide) (free "days")
  exact ⟨reads, reads.put w (by decide) (free "day")⟩

/-- A list with a day is stored as the list of its text. -/
theorem dates_elementwise : eval ⟨fun _ => none⟩ (datesFrame.put "days" (.list [.time leapDay]))
    (toStorage 0 (.list (.scalar .timestamp)) (.name "days")) = pure (.list [.text "2024-02-29"]) := by
  have clear : Clear (.scalar .timestamp) := fun _ _ mentioned => nomatch mentioned
  have reads : ∀ w, Reads ⟨fun _ => none⟩ (datesFrame.put "days" (.list [.time leapDay])) (.list (.scalar .timestamp)) ∧
      Reads ⟨fun _ => none⟩ ((datesFrame.put "days" (.list [.time leapDay])).put "day" w) (.list (.scalar .timestamp)) :=
    datesFrame_put rfl (by decide) _
  have stored : Stores ⟨fun _ => none⟩ (.scalar .timestamp) (.time leapDay) (.text "2024-02-29") := stores_timestamp leapDay
  have each := stored _ 0 (.name "day") (reads _).2.element (eval_name_put "day" _)
  rw [(conversions_elementwise clear 0 0 (reads .none).1 (eval_name_put "days" _) (fun _ _ => trivial)
    fun v _ => (reads v).2.element).1, List.mapM_cons, each, List.mapM_nil, pure_bind, pure_bind, pure_bind]

/-- A list of lists of days is not read like the lists in it. -/
theorem nestedDates_unread : ¬ ∀ (p : Program) (σ : Frame Library.plain) (type : TypeRef) (vs : List (Datum Library.plain))
    (value : Expr) (x : String) (depth n : Nat), Clear type → Reads p σ (.list type) → eval p σ value = pure (.list vs) →
    (∀ v ∈ vs, Shaped type v) → (∀ v ∈ vs, Reads p (σ.put x v) type) →
    eval p σ (fromStorage depth (.list type) value) = (do
      let ws ← vs.mapM fun v => eval p (σ.put x v) (fromStorage n type (.name x))
      pure (.list ws)) := by
  intro elementwise
  have clear : Clear (.scalar .timestamp) := fun _ _ mentioned => nomatch mentioned
  have reads : ∀ w, Reads ⟨fun _ => none⟩ (datesFrame.put "days" (.list [.list [.text "2024-02-29"]]))
        (.list (.list (.scalar .timestamp))) ∧
      Reads ⟨fun _ => none⟩ ((datesFrame.put "days" (.list [.list [.text "2024-02-29"]])).put "day" w)
        (.list (.list (.scalar .timestamp))) :=
    datesFrame_put rfl (by decide) _
  have evaluates : eval ⟨fun _ => none⟩ (datesFrame.put "days" (.list [.list [.text "2024-02-29"]])) (.name "days") =
      pure (.list [.list [.text "2024-02-29"]]) := eval_name_put "days" _
  have read := elementwise _ _ (.list (.scalar .timestamp)) _ _ "day" 0 0 clear (reads .none).1 evaluates
    (by simp [Shaped]) fun v _ => (reads v).2.element
  have day : Restores ⟨fun _ => none⟩ (.scalar .timestamp) (.text "2024-02-29") (.time leapDay) :=
    restores_timestamp Library.plain_faithful leapDay
  have inner := restores_each clear rfl (.cons day .nil) _ 0 (.name "day") (reads _).2.element (eval_name_put "day" _)
  -- the outer list is copied, and the inner one is gone through
  rw [fromStorage, if_neg (by decide), (reads .none).1.call_list evaluates, List.mapM_cons, inner, List.mapM_nil,
    pure_bind, pure_bind, pure_bind] at read
  have same := Outcome.pure_inj read
  simp at same

end Access

end Tablewright
