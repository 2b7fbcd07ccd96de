import Tablewright.Proofs.Access.Defaults
import Tablewright.Proofs.Access.Members
import Tablewright.Source.Printer

/-!
# Names that fields capture

The identifiers of fields are bound in the bodies of the generated classes and as parameters of the constructor.  In the
same places hints, decorators and defaults read builtins, imports and generated types.  A field that has the name of one
of these captures it: what is read then is the field.  The reserved identifiers do not contain these names.

* `Expr.reads`, `Stmt.borrows`: the names that are read, and those that a class body takes from around it.
* `CaptureFree`: no field captures a name.
* `KeepsNames`: no field is called like a name that is read.
* `captureFree_iff`: this is when no field captures a name.
-/

namespace Tablewright

namespace Source

/-! ## Names that are read -/

mutual

/-- The names that an expression takes from around it, as often as they stand there. -/
def Expr.reads : Expr → List String
  | .name id => [id]
  | .constant _ => []
  | .attr value _ => value.reads
  | .subscript value index => value.reads ++ index.reads
  | .call callee args keywords => callee.reads ++ Expr.readsAll args ++ Keyword.readsAll keywords
  | .tuple items => Expr.readsAll items
  | .list items => Expr.readsAll items
  | .dict entries => Entry.readsAll entries
  | .comprehension _ element target source => source.reads ++ element.reads.filter (· != target)
  | .compare left _ right => left.reads ++ right.reads
  | .not operand => operand.reads
  | .or left right => left.reads ++ right.reads
  | .conditional body test orelse => body.reads ++ test.reads ++ orelse.reads
  | .formatted parts => Part.readsAll parts

def Expr.readsAll : List Expr → List String
  | [] => []
  | e :: rest => e.reads ++ Expr.readsAll rest

def Keyword.readsAll : List Keyword → List String
  | [] => []
  | .mk _ value :: rest => value.reads ++ Keyword.readsAll rest

def Entry.readsAll : List Entry → List String
  | [] => []
  | .mk key value :: rest => key.reads ++ value.reads ++ Entry.readsAll rest

/-- The names that the parts of a formatted text take from around them. -/
def Part.readsAll : List Part → List String
  | [] => []
  | .text _ :: rest => Part.readsAll rest
  | .field value _ :: rest => value.reads ++ Part.readsAll rest

end

/-- Whether a decorator extends what the name of the function stood for before it. -/
def Signature.extendedBy (signature : Signature) : Expr → Bool
  | .attr (.name id) _ => id == signature.name
  | _ => false

/-- The names that the head of a function takes from around it.  A decorator that extends what the name of the function
stood for is meant to read that. -/
def Signature.borrows (signature : Signature) : List String :=
  ({ signature with decorators := signature.decorators.filter fun d => !signature.extendedBy d }).exprs.flatMap Expr.reads

mutual

/-- The names that a statement of a class body takes from around it when the body is run.  The bodies of functions are
run later, and neither they nor the bodies of inner classes see what the class binds. -/
def Stmt.borrows : Stmt → List String
  | .expr value => value.reads
  | .assign (.name _) value => value.reads
  | .assign target value => target.reads ++ value.reads
  | .annotated _ hint value => hint.reads ++ value.toList.flatMap Expr.reads
  | .increase target value => target :: value.reads
  | .result value => value.reads
  | .raise exception => exception.reads
  | .pass => []
  | .global _ => []
  | .importModule _ => []
  | .importFrom _ _ => []
  | .ifThen test body => test.reads ++ borrowsAll body
  | .forIn _ source body => source.reads ++ borrowsAll body
  | .loop test body => test.reads ++ borrowsAll body
  | .withBlock context body => context.reads ++ borrowsAll body
  | .function signature _ _ => signature.borrows
  | .classDef _ decorators bases _ _ => (decorators ++ bases).flatMap Expr.reads

/-- The names that several statements of a class body take from around it. -/
def borrowsAll : List Stmt → List String
  | [] => []
  | s :: rest => s.borrows ++ borrowsAll rest

end

end Source

namespace Access

open Source (Expr Stmt Param Signature)

variable {enums : List EnumType} {r : Record} {f : ResolvedField}

/-- A statement does not borrow the name of a field whose property another one defines. -/
def Spares (r : Record) (t s : Stmt) : Prop := ∀ f ∈ r.fields, t ∈ property r f → f.identifier ∉ s.borrows

/-- No field captures a name in the classes of a record.  In the body of the class and in that of its builder nothing
that comes after a definition of a field borrows the name of the field, and no default reads a parameter of the
constructor. -/
structure CaptureFree (enums : List EnumType) (r : Record) : Prop where
  members : (recordClass enums r).value.suite.Pairwise (Spares r)
  builder : (builderClass r).suite.Pairwise fun t s =>
    ∀ f ∈ r.fields, t = methodOf (giveFunction r f) → f.identifier ∉ s.borrows
  defaults : ∀ f ∈ r.fields, ∀ g ∈ r.fields, ∀ default ∈ defaultOf enums g, f.identifier ∉ default.reads

/-! ## What hints and defaults read -/

/-- The names that the hint of a value that is present reads. -/
def plainHintNames : TypeRef → List String
  | .scalar kind => [scalarClass kind]
  | .list element => "List" :: plainHintNames element
  | .set element => ["Set", scalarClass element]
  | .record name => [name]
  | .enum name => [name]
  | .any => ["Any"]

/-- The names that the hint of a value that may be absent reads. -/
def hintNames : TypeRef → List String
  | .any => ["Any"]
  | type => "Optional" :: plainHintNames type

def defaultNames : TypeRef → List String
  | .scalar .number => ["Decimal"]
  | .scalar .timestamp => ["datetime"]
  | .set _ => ["set"]
  | .enum name => [name]
  | _ => []

theorem typeHint_reads (type : TypeRef) : (typeHint type).reads = plainHintNames type := by
  induction type with
  | list element ih => exact congrArg ("List" :: ·) ih
  | _ => rfl

@[simp] theorem optionalHint_reads (type : TypeRef) : (optionalHint type).reads = hintNames type := by
  by_cases any : type = .any
  · subst any
    rfl
  · have names : hintNames type = "Optional" :: plainHintNames type := by
      cases type <;> first | rfl | exact absurd rfl any
    rw [names, optionalHint_of_ne any, ← typeHint_reads]
    rfl

mutual

/-- The expression of a document value reads no name. -/
theorem ofValue_reads : (v : Value) → (Expr.ofValue v).reads = []
  | .dict entries => ofEntries_reads entries
  | .list items => ofValues_reads items
  | .tuple items => ofValues_reads items
  | .null => rfl
  | .bool _ => rfl
  | .int _ => rfl
  | .float _ => rfl
  | .text _ => rfl
  | .set _ => rfl
  | .bytes _ => rfl
  | .date _ => rfl
  | .moment _ => rfl

theorem ofValues_reads : (items : List Value) → Expr.readsAll (Expr.ofValues items) = []
  | [] => rfl
  | v :: rest => by rw [Expr.ofValues, Expr.readsAll, ofValue_reads v, ofValues_reads rest, List.nil_append]

theorem ofEntries_reads : (entries : List (Value × Value)) → Source.Entry.readsAll (Expr.ofEntries entries) = []
  | [] => rfl
  | (k, v) :: rest => by
    rw [Expr.ofEntries, Source.Entry.readsAll, ofValue_reads k, ofValue_reads v, ofEntries_reads rest]
    rfl

end

/-- An initial value reads the class or the function that makes it, and nothing inside of a literal. -/
theorem SpelledOut.reads {type : TypeRef} {value : Value} {default : Expr} (spelled : SpelledOut type value default) :
    default.reads = defaultNames type := by
  cases spelled with
  | text | number | truth | time => rfl
  | untyped | list => exact ofValue_reads _
  | set =>
    rw [Expr.apply, Expr.reads, Expr.readsAll, ofValue_reads]
    rfl

theorem defaultOf_reads {default : Expr} (given : defaultOf enums f = some default) :
    default.reads = defaultNames f.type := by
  rcases default?_cases (defaultOf_some given).2 with ⟨t, -, constant, isEnum, -, rfl⟩ | spelled
  · rw [isEnum]
    rfl
  · exact spelled.reads

/-! ## What the members of a class borrow -/

/-- The members of a class that come after the properties of its fields. -/
def lateMembers (r : Record) : List Stmt :=
  [classMethod "builder" [] (builderName r) [.result (Expr.method (.name "cls") "Builder" [])],
   toItem r, fromItem r, equality r, hash r, shown r, builderClass r]

def lateNames : List String := ["classmethod", "Dict", "str", "Any", "object", "bool", "int"]

theorem recordBody_parts (enums : List EnumType) (r : Record) : recordBody enums r =
    (classConstants r ++ [(constructor enums r).value]) ++ (r.fields.flatMap (property r) ++ lateMembers r) := by
  simp [recordBody, lateMembers]

theorem borrows_lateMembers {name : String} : (∀ s ∈ lateMembers r, name ∉ s.borrows) ↔ name ∉ lateNames := by
  have all : (lateMembers r).flatMap Stmt.borrows = ["classmethod", "Dict", "str", "Any", "classmethod", "Dict", "str",
      "Any", "object", "bool", "int", "str"] := rfl
  have same : ∀ name, name ∈ (lateMembers r).flatMap Stmt.borrows ↔ name ∈ lateNames := by
    rw [all]
    exact fun name => ⟨fun listed => (by decide : _ ⊆ lateNames) listed, fun late => (by decide : lateNames ⊆ _) late⟩
  rw [← same, List.mem_flatMap]
  push Not
  rfl

/-- The getter of a field borrows the decorator and the hint of the field, the setter the hint alone. -/
theorem property_borrows (r : Record) (f : ResolvedField) : ∃ getter setter, property r f = [getter, setter] ∧
    getter.borrows = "property" :: hintNames f.type ∧ setter.borrows = hintNames f.type := by
  refine ⟨_, _, rfl, ?_, ?_⟩ <;>
    simp [Stmt.borrows, Signature.borrows, Signature.extendedBy, Signature.exprs, Param.plain, Param.required,
      Source.noResult, Expr.none, Expr.reads]

theorem borrows_gives (r : Record) (f : ResolvedField) :
    (methodOf (giveFunction r f)).borrows = hintNames f.type := by
  simp [methodOf, giveFunction, Stmt.borrows, Signature.borrows, Signature.exprs, Param.plain, Param.required,
    builderName, Expr.text, Expr.reads]

def decoratorsOf : Stmt → List Expr
  | .function signature _ _ => signature.decorators
  | .classDef _ decorators _ _ _ => decorators
  | _ => []

theorem identifier_of_mem_property {t : Stmt} {f g : ResolvedField} (here : t ∈ property r f)
    (there : t ∈ property r g) : f.identifier = g.identifier := by
  have named : ∀ {f : ResolvedField}, t ∈ property r f → t.binds = [f.identifier] := by
    intro f member
    simp only [property, List.mem_cons, List.not_mem_nil, or_false] at member
    obtain rfl | rfl := member <;> rfl
  exact List.singleton_inj.mp ((named here).symm.trans (named there))

/-- The decorators tell properties from all other members. -/
theorem notMem_property {m : Stmt} (member : m ∈ ownMembers enums r) : m ∉ property r f := by
  have own : decoratorsOf m = [] ∨ decoratorsOf m = [.name "classmethod"] := by
    rw [ownMembers, List.mem_append] at member
    rcases member with constant | method
    · have assigns : ∀ s ∈ classConstants r, decoratorsOf s = [] := by
        rw [classConstants]
        cases r.role with
        | nested => simp [decoratorsOf, Stmt.bind]
        | entity partitionKey sortKey =>
          dsimp only
          cases given sortKey <;> simp [decoratorsOf, Stmt.bind]
      exact .inl (assigns m constant)
    · rw [constructor_value] at method
      simp only [List.mem_cons, List.not_mem_nil, or_false] at method
      obtain rfl | rfl | rfl | rfl | rfl | rfl | rfl | rfl := method
      all_goals first | exact .inl rfl | exact .inr rfl
  intro property'
  simp only [property, List.mem_cons, List.not_mem_nil, or_false] at property'
  obtain rfl | rfl := property' <;> simp [decoratorsOf] at own

/-! ## When nothing is captured -/

/-- No field is called like what the classes and the constructor of a record read besides it. -/
structure KeepsNames (enums : List EnumType) (r : Record) : Prop where
  late : ∀ f ∈ r.fields, f.identifier ∉ lateNames
  own : ∀ f ∈ r.fields, f.identifier ∉ hintNames f.type
  later : r.fields.Pairwise fun f g => f.identifier ∉ "property" :: hintNames g.type
  defaults : ∀ f ∈ r.fields, ∀ g ∈ r.fields, (defaultOf enums g).isSome → f.identifier ∉ defaultNames g.type

theorem keepsNames_iff (enums : List EnumType) (r : Record) : KeepsNames enums r ↔
    (∀ f ∈ r.fields, f.identifier ∉ lateNames) ∧ (∀ f ∈ r.fields, f.identifier ∉ hintNames f.type) ∧
      (r.fields.Pairwise fun f g => f.identifier ∉ "property" :: hintNames g.type) ∧
      ∀ f ∈ r.fields, ∀ g ∈ r.fields, (defaultOf enums g).isSome → f.identifier ∉ defaultNames g.type :=
  ⟨fun ⟨late, own, later, defaults⟩ => ⟨late, own, later, defaults⟩,
    fun ⟨late, own, later, defaults⟩ => ⟨late, own, later, defaults⟩⟩

instance (enums : List EnumType) (r : Record) : Decidable (KeepsNames enums r) :=
  decidable_of_iff _ (keepsNames_iff enums r).symm

theorem spares_property {t s : Stmt} (inRecord : f ∈ r.fields) (member : t ∈ property r f) :
    Spares r t s ↔ f.identifier ∉ s.borrows := by
  constructor
  · exact fun spares => spares f inRecord member
  · intro apart g _ same
    exact identifier_of_mem_property member same ▸ apart

/-- What holds of one part of a property exactly if it holds of the other holds of both. -/
theorem forall_property {P : Stmt → Prop} {q : Prop} (same : ∀ t ∈ property r f, (P t ↔ q)) :
    (∀ t ∈ property r f, P t) ↔ q := by
  obtain ⟨getter, setter, parts, -, -⟩ := property_borrows r f
  have first : getter ∈ property r f := parts ▸ List.mem_cons_self
  exact ⟨fun all => (same getter first).mp (all getter first), fun holds t member => (same t member).mpr holds⟩

/-- In the class of a record, names are captured by members after the properties, by a setter, or by a later property. -/
theorem pairwise_suite : (recordClass enums r).value.suite.Pairwise (Spares r) ↔
    (∀ f ∈ r.fields, f.identifier ∉ lateNames) ∧ (∀ f ∈ r.fields, f.identifier ∉ hintNames f.type) ∧
      (r.fields.Pairwise fun f g => f.identifier ∉ "property" :: hintNames g.type) := by
  -- only properties take names away, so every pair that starts with another member is fine
  have others : ∀ m ∈ ownMembers enums r, ∀ s, Spares r m s := fun m member s f _ same =>
    absurd same (notMem_property member)
  have front : ∀ m ∈ classConstants r ++ [(constructor enums r).value], ∀ s, Spares r m s := by
    refine fun m member => others m ?_
    rw [ownMembers, ← List.singleton_append, ← List.append_assoc]
    exact List.mem_append_left _ member
  have back : ∀ m ∈ lateMembers r, ∀ s, Spares r m s := fun m member =>
    others m (List.mem_append_right _ (List.mem_cons_of_mem _ member))
  -- a property stands before the late members, and its own getter before its setter
  have late : (∀ t ∈ r.fields.flatMap (property r), ∀ s ∈ lateMembers r, Spares r t s) ↔
      ∀ f ∈ r.fields, f.identifier ∉ lateNames := by
    rw [List.forall_mem_flatMap]
    refine forall₂_congr fun f inRecord => forall_property fun t member => ?_
    rw [← borrows_lateMembers]
    exact forall₂_congr fun s _ => spares_property inRecord member
  have own : (∀ f ∈ r.fields, (property r f).Pairwise (Spares r)) ↔ ∀ f ∈ r.fields, f.identifier ∉ hintNames f.type := by
    refine forall₂_congr fun f inRecord => ?_
    obtain ⟨getter, setter, parts, -, borrowed⟩ := property_borrows r f
    have first : getter ∈ property r f := parts ▸ List.mem_cons_self
    rw [parts, List.pairwise_pair, spares_property inRecord first, borrowed]
  -- the second of two properties is decorated and hinted after the first one is defined
  have later : (r.fields.Pairwise fun f g => ∀ t ∈ property r f, ∀ s ∈ property r g, Spares r t s) ↔
      r.fields.Pairwise fun f g => f.identifier ∉ "property" :: hintNames g.type := by
    refine List.Pairwise.iff_of_mem fun {f g} inRecord _ => forall_property fun t member => ?_
    obtain ⟨getter, setter, parts, byGetter, bySetter⟩ := property_borrows r g
    rw [parts, List.forall_mem_cons, List.forall_mem_singleton, spares_property inRecord member,
      spares_property inRecord member, byGetter, bySetter]
    exact and_iff_left_of_imp fun apart hinted => apart (List.mem_cons_of_mem _ hinted)
  have frontPairs : (classConstants r ++ [(constructor enums r).value]).Pairwise (Spares r) :=
    List.pairwise_of_forall_mem_list fun m member s _ => front m member s
  have backPairs : (lateMembers r).Pairwise (Spares r) :=
    List.pairwise_of_forall_mem_list fun m member s _ => back m member s
  rw [recordClass_body, Stmt.suite, recordBody_parts, List.pairwise_append,
    and_iff_right frontPairs, and_iff_left (fun m member s _ => front m member s), List.pairwise_append,
    and_iff_right backPairs, List.pairwise_flatMap, late, own, later]
  tauto

/-- In the class of a builder, names are captured by later methods only. -/
theorem pairwise_builder_suite (later : r.fields.Pairwise fun f g => f.identifier ∉ hintNames g.type) :
    (builderClass r).suite.Pairwise fun t s =>
      ∀ f ∈ r.fields, t = methodOf (giveFunction r f) → f.identifier ∉ s.borrows := by
  rw [builderClass_body, Stmt.suite, builderBody, List.cons_append, List.pairwise_cons, List.pairwise_append]
  refine ⟨?_, ?_, List.pairwise_singleton _ _, ?_⟩
  · intro s _ f _ same
    simp [methodOf, builderInit, giveFunction, Param.plain, Param.required] at same
  · refine List.pairwise_map.mpr (later.imp fun {f g} apart h _ same => ?_)
    have named : [f.identifier] = [h.identifier] := congrArg Stmt.binds same
    rw [borrows_gives]
    exact List.singleton_inj.mp named ▸ apart
  · intro t _ s last
    rw [List.mem_singleton.mp last]
    exact fun f _ _ => List.not_mem_nil

/-- The classes of a record are free of capture if and only if no field is called like what they read besides it. -/
theorem captureFree_iff (enums : List EnumType) (r : Record) : CaptureFree enums r ↔ KeepsNames enums r := by
  have defaults : (∀ f ∈ r.fields, ∀ g ∈ r.fields, ∀ default ∈ defaultOf enums g, f.identifier ∉ default.reads) ↔
      ∀ f ∈ r.fields, ∀ g ∈ r.fields, (defaultOf enums g).isSome → f.identifier ∉ defaultNames g.type := by
    refine forall₄_congr fun f _ g _ => ?_
    rw [Option.isSome_iff_exists, forall_exists_index]
    exact forall₂_congr fun default given => by rw [defaultOf_reads given]
  rw [keepsNames_iff, ← defaults]
  constructor
  · intro free
    obtain ⟨late, own, later⟩ := pairwise_suite.mp free.members
    exact ⟨late, own, later, free.defaults⟩
  · rintro ⟨late, own, later, defaults⟩
    refine ⟨pairwise_suite.mpr ⟨late, own, later⟩, pairwise_builder_suite ?_, defaults⟩
    exact later.imp fun apart hinted => apart (List.mem_cons_of_mem _ hinted)

theorem shopOrder_captureFree : ∃ e, (describe shopOrder).value = .ok e ∧
    ∀ r ∈ e.record :: e.nested, CaptureFree e.enums r := by
  obtain ⟨e, described, keeps⟩ := exists_described (s := shopOrder) (P := fun e =>
    (e.record :: e.nested).all fun r => decide (KeepsNames e.enums r)) (by decide +kernel)
  refine ⟨e, described, fun r member => (captureFree_iff e.enums r).mpr ?_⟩
  exact of_decide_eq_true (List.all_eq_true.mp keeps r member)

/-- An order whose first field is called like the decorator of properties. -/
def decoratedOrder : Schema :=
  { shopOrder with fields := [bareField "property" "string", bareField "order-id" "string"]
                   primaryKey := ⟨"order-id", none⟩ }

/-- The property of the second field is decorated with the property of the first. -/
theorem decoratedOrder_captures : ¬ ∀ s e, checkCollisions s = .ok () → s.NoOverrides → (describe s).value = .ok e →
    ∀ r ∈ e.record :: e.nested, CaptureFree e.enums r := by
  intro free
  obtain ⟨e, described, captured⟩ := exists_described (s := decoratedOrder) (P := fun e =>
    !decide (KeepsNames e.enums e.record)) (by decide +kernel)
  have noOverrides : decoratedOrder.NoOverrides := by
    have all : ∀ scope ∈ scopes decoratedOrder.fields, ∀ f ∈ scope, given f.nameOverride = none := by decide +kernel
    exact fun scope is => all scope is.mem_scopes
  have checked : checkCollisions decoratedOrder = .ok () := checkCollisions_ok.mpr (by decide +kernel)
  have keeps := (captureFree_iff e.enums e.record).mp (free decoratedOrder e checked noOverrides described e.record
    List.mem_cons_self)
  rw [decide_eq_true keeps] at captured
  exact Bool.false_ne_true captured

end Access

end Tablewright
