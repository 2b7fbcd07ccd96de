import Tablewright.Proofs.Name.Snake
import Tablewright.Proofs.Plan.Clashes
import Tablewright.Proofs.Plan.Sources
import Tablewright.Proofs.Schema.Description
import Tablewright.Proofs.Text.Sorted
import Tablewright.Text.Case

/-!
# The layout of a plan

The paths of a planned batch, seen as a directory listing: the package of the namespace with the modules
of the entities, the sub-packages with theirs, and the packages around.  Every directory of the listing
has its own package file, and the modules of one directory differ because the check of type names keeps
the modules of all types apart and because a common class suffix can be taken off modules.

* `batchListing`: the directories of a batch with their modules; `batchPaths_perm` ties it to the files.
* `WellLaidOut`: what holds of the paths of every plan, `plan_wellLaidOut`.
-/

namespace Tablewright

/-! ## The listing -/

/-- The types that live beside each other in the sub-package of nested types. -/
def Entity.nestedTypes (e : Entity) : List String := e.nested.map (·.name) ++ e.enums.map (·.name)

/-- The sub-packages of a batch with their modules. -/
def subListing (entities : List Entity) (table : Option Table) : List (String × List String) :=
  [(Access.keysPackage, entities.map fun e => moduleName (Access.keysClass e.name)),
   (Access.validatorsPackage,
     entities.map (fun e => moduleName (Access.validatorClass e.name)) ++ [Access.validationErrorModule])]
    ++ (if entities.any fun e => !e.nested.isEmpty || !e.enums.isEmpty then
        [(Access.nestedPackage, entities.flatMap fun e => e.nestedTypes.map moduleName)] else [])
    ++ (if table.isSome then
        [(Access.clientPackage, [Access.clientModule]), (Access.configPackage, [Access.configModule]),
         (Access.repositoryPackage, entities.map fun e => moduleName (Access.repositoryClass e.name))] else [])

def Path.module (dir : Path) (stem : String) : Path := dir.child (stem ++ ".py")

/-- The directories of a batch with their modules: the packages around, the package, its sub-packages. -/
def batchListing (n : Namespace) (entities : List Entity) (table : Option Table) :
    List (Path × List String) :=
  n.packages.map (fun p => (p, []))
    ++ (n.path, entities.map fun e => moduleName e.name)
    :: (subListing entities table).map fun (sub, stems) => (n.path.child sub, stems)

/-- The paths of a listing: the package file and the modules of every directory. -/
def listingPaths (listing : List (Path × List String)) : List Path :=
  listing.flatMap fun (dir, stems) => dir.child packageFile :: stems.map dir.module

theorem neededPackages_eq (entities : List Entity) (table : Option Table) :
    neededPackages entities table = Text.sortNames ((subListing entities table).map (·.1)) := by
  unfold neededPackages subListing
  congr 1
  split <;> split <;> rfl

theorem subListing_nodup (entities : List Entity) (table : Option Table) :
    ((subListing entities table).map (·.1)).Nodup := by
  unfold subListing
  split <;> split <;> simp only [List.map_append, List.map_cons, List.map_nil] <;> decide

/-- A batch without nested types has no modules for them. -/
theorem nestedTypes_eq_nil {entities : List Entity}
    (none : (entities.any fun e => !e.nested.isEmpty || !e.enums.isEmpty) = false) :
    (entities.flatMap fun e => e.nestedTypes.map moduleName) = [] := by
  rw [List.flatMap_eq_nil_iff]
  intro e member
  have empty := List.any_eq_false.mp none e member
  simp only [Bool.or_eq_true, Bool.not_eq_true', List.isEmpty_eq_false_iff, not_or, not_not] at empty
  simp [Entity.nestedTypes, empty.1, empty.2]

theorem count_map_eq_sum (p : Path) (f : Entity → Path) (entities : List Entity) :
    List.count p (entities.map f) = (entities.map fun e => if f e = p then 1 else 0).sum := by
  rw [List.map_eq_flatMap, List.count_flatMap]
  simp [Function.comp_def, List.count_singleton]

/-- The modules of one entity after the other are those of all entities, directory by directory. -/
theorem entityPaths_perm (root : Path) (table : Option Table) (entities : List Entity) :
    ((entities.flatMap (entityFiles root table)).map fun f => f.2.1).Perm
      (entities.map (fun e => root.module (moduleName e.name))
        ++ (entities.flatMap fun e => e.nestedTypes.map moduleName).map (root.child Access.nestedPackage).module
        ++ entities.map (fun e => (root.child Access.keysPackage).module (moduleName (Access.keysClass e.name)))
        ++ entities.map (fun e =>
            (root.child Access.validatorsPackage).module (moduleName (Access.validatorClass e.name)))
        ++ table.toList.flatMap fun _ => entities.map fun e =>
            (root.child Access.repositoryPackage).module (moduleName (Access.repositoryClass e.name))) := by
  rw [List.perm_iff_count]
  intro p
  cases table <;>
    simp [List.map_flatMap, List.count_flatMap, entityFiles, Function.comp_def, List.count_cons,
      List.sum_map_add, Entity.nestedTypes, count_map_eq_sum, moduleFile, Path.module] <;> ring

/-- The files of a batch lie where its listing says. -/
theorem batchPaths_perm (n : Namespace) (entities : List Entity) (table : Option Table) :
    ((batchFiles n entities table).map fun f => f.2.1).Perm (listingPaths (batchListing n entities table)) := by
  have packages : ((packageFiles n (neededPackages entities table)).map fun f => f.2.1).Perm
      ((n.packages ++ n.path :: (subListing entities table).map fun g => n.path.child g.1).map
        (Path.child · packageFile)) := by
    rw [packageFiles, List.map_map, neededPackages_eq, List.append_assoc]
    refine List.Perm.map _ (List.Perm.append_left _ (List.Perm.cons _ ?_))
    have sub := (Text.sortNames_perm (subListing_nodup entities table)).map n.path.child
    rwa [List.map_map] at sub
  have around : listingPaths (n.packages.map fun p => (p, [])) = n.packages.map (Path.child · packageFile) := by
    rw [listingPaths, List.flatMap_map, List.map_eq_flatMap]
    rfl
  have modules := entityPaths_perm n.path table entities
  -- both sides list the same paths in another order, so that it is enough to count one path
  rw [List.perm_iff_count] at packages modules ⊢
  intro p
  rw [batchFiles, List.map_append, List.map_append, List.map_append, List.count_append, List.count_append,
    List.count_append, packages, modules, batchListing, listingPaths, List.flatMap_append, ← listingPaths, around]
  by_cases nested : (entities.any fun e => !e.nested.isEmpty || !e.enums.isEmpty) = true
  · cases table <;>
      simp [subListing, nested, tableFiles, List.count_cons, Function.comp_def, Path.module] <;> ring
  · have none := nestedTypes_eq_nil (Bool.not_eq_true _ ▸ nested)
    cases table <;>
      simp [subListing, nested, none, tableFiles, List.count_cons, Function.comp_def, Path.module] <;> ring

/-! ## Distinct paths -/

@[simp] theorem Path.parent_child (p : Path) (name : String) : (p.child name).parent = p := by
  simp [Path.child, Path.parent]

@[simp] theorem Path.name_child (p : Path) (name : String) : (p.child name).name = name := by
  simp [Path.child, Path.name]

theorem Path.child_inj {p q : Path} {a b : String} : p.child a = q.child b ↔ p = q ∧ a = b := by
  constructor
  · intro same
    exact ⟨by simpa using congrArg Path.parent same, by simpa using congrArg Path.name same⟩
  · rintro ⟨rfl, rfl⟩
    rfl

theorem Path.module_inj {p q : Path} {a b : String} : p.module a = q.module b ↔ p = q ∧ a = b := by
  rw [Path.module, Path.module, Path.child_inj, String.append_left_inj]

def packageModule : String := "__init__"

theorem Path.module_packageModule (dir : Path) : dir.module packageModule = dir.child packageFile := rfl

theorem mem_listingPaths {listing : List (Path × List String)} {p : Path} :
    p ∈ listingPaths listing ↔
      ∃ dir stems, (dir, stems) ∈ listing ∧ ∃ stem ∈ packageModule :: stems, p = dir.module stem := by
  simp only [listingPaths, List.mem_flatMap, Prod.exists, List.mem_cons, List.mem_map, exists_eq_or_imp,
    Path.module_packageModule]
  simp only [eq_comm]

/-- Different directories with different modules, none of them a package's own, have different paths. -/
theorem listingPaths_nodup {listing : List (Path × List String)} (dirs : (listing.map (·.1)).Nodup)
    (stems : ∀ d ∈ listing, (packageModule :: d.2).Nodup) : (listingPaths listing).Nodup := by
  rw [listingPaths, List.nodup_flatMap]
  constructor
  · rintro ⟨dir, modules⟩ member
    have distinct := (stems _ member).map (f := dir.module) fun a b same => (Path.module_inj.mp same).2
    exact distinct
  · refine (List.pairwise_map.mp dirs).imp ?_
    rintro ⟨dir, modules⟩ ⟨dir', modules'⟩ different p here there
    have inDir : ∀ {d : Path} {names : List String}, p ∈ d.child packageFile :: names.map d.module →
        p.parent = d := by
      intro d names member
      rcases List.mem_cons.mp member with rfl | member
      · exact Path.parent_child d packageFile
      · obtain ⟨stem, -, rfl⟩ := List.mem_map.mp member
        exact Path.parent_child d _
    exact different ((inDir here).symm.trans (inDir there))

/-! ## Modules of one directory -/

/-- The name of a module: small letters, digits and underscores, the first of which is no underscore. -/
structure ModuleStem (stem : String) : Prop where
  chars : stem.toList.all Name.isModuleChar
  head : stem.toList.head? ≠ some '_'

instance (stem : String) : Decidable (ModuleStem stem) :=
  decidable_of_iff (_ ∧ _) ⟨fun h => ⟨h.1, h.2⟩, fun h => ⟨h.chars, h.head⟩⟩

theorem moduleName_stem (name : String) : ModuleStem (moduleName name) := by
  constructor <;> rw [moduleName, Name.toList_snakeCase]
  · exact List.all_eq_true.mpr fun c => Name.isModuleChar_of_mem_snakeChars
  · exact Name.head?_snakeChars_ne_underscore name.toList

theorem capitalised_keys : Name.Capitalised "Keys".toList :=
  ⟨'K', 'e', ['y', 's'], by simp, rfl, by simp⟩

theorem capitalised_validator : Name.Capitalised "Validator".toList :=
  ⟨'V', 'a', "lidator".toList, by simp, rfl, by simp⟩

theorem capitalised_repository : Name.Capitalised "Repository".toList :=
  ⟨'R', 'e', "pository".toList, by simp, rfl, by simp⟩

/-- A capitalised ending is a word of its own in snake case, whatever name it is set after.  Two names that have it share
a module exactly if they do without it. -/
theorem moduleFile_ending {suffix : String} (capitalised : Name.Capitalised suffix.toList) (name : String) :
    Name.snakeCase (name ++ suffix) =
      (if Name.snakeCase name = "" then String.ofList (suffix.toList.map Char.toLower)
       else Name.snakeCase name ++ "_" ++ String.ofList (suffix.toList.map Char.toLower)) ∧
    ∀ other, moduleFile (name ++ suffix) = moduleFile (other ++ suffix) ↔ moduleFile name = moduleFile other := by
  have ending : ∀ name, Name.snakeCase (name ++ suffix) =
      if Name.snakeCase name = "" then String.ofList (suffix.toList.map Char.toLower)
      else Name.snakeCase name ++ "_" ++ String.ofList (suffix.toList.map Char.toLower) := by
    intro name
    have empty : Name.snakeCase name = "" ↔ Name.snakeChars name.toList = [] := by
      rw [← String.toList_inj, Name.toList_snakeCase, String.toList_empty]
    have chars := Name.snakeChars_append capitalised name.toList
    rw [← String.toList_inj, Name.toList_snakeCase, String.toList_append, chars]
    by_cases none : Name.snakeCase name = ""
    · rw [if_pos none, if_pos (empty.mp none), String.toList_ofList]
    · rw [if_neg none, if_neg (mt empty.mpr none)]
      simp [Name.toList_snakeCase]
  refine ⟨ending name, fun other => ?_⟩
  simp only [moduleFile, moduleName, String.append_left_inj]
  constructor
  · exact Name.snakeCase_append_inj capitalised
  · intro same
    rw [ending, ending, same]

theorem moduleFile_ending_keys :
    Name.snakeCase ("GSI1-Order" ++ "Keys") = "gsi1_order_keys" ∧
    moduleFile ("GSI1-Order" ++ "Keys") = moduleFile ("gsi1 order" ++ "Keys") := by
  have keys := moduleFile_ending capitalised_keys "GSI1-Order"
  exact ⟨keys.1.trans (by decide), (keys.2 "gsi1 order").mpr (by decide)⟩

namespace Unclashing

variable {entities : List Entity}

theorem entityModules (unclashing : Unclashing entities) : (entities.map fun e => moduleName e.name).Nodup := by
  refine unclashing.modules.sublist ?_
  rw [typeModules, List.map_eq_flatMap]
  refine List.Sublist.flatMap_right entities fun e _ => ?_
  simp [Entity.types_eq]

theorem nestedModules (unclashing : Unclashing entities) :
    (entities.flatMap fun e => e.nestedTypes.map moduleName).Nodup := by
  refine unclashing.modules.sublist (List.Sublist.flatMap_right entities fun e _ => ?_)
  rw [Entity.types_eq, List.map_cons]
  exact List.sublist_cons_self _ _

/-- Entities have different helpers because a common ending does not make modules equal. -/
theorem suffixedModules (unclashing : Unclashing entities) {suffix : String}
    (capitalised : Name.Capitalised suffix.toList) :
    (entities.map fun e => moduleName (e.name ++ suffix)).Nodup := by
  refine List.pairwise_map.mpr ((List.pairwise_map.mp unclashing.entityModules).imp ?_)
  intro e e' different same
  exact different (Name.snakeCase_append_inj capitalised same)

end Unclashing

/-- A validator's module ends with the word for validators, which the module of the errors does not. -/
theorem validationErrorModule_ne (name : String) :
    moduleName (Access.validatorClass name) ≠ Access.validationErrorModule := by
  intro same
  -- the ending of the class is the last word of the module, whatever stands before it
  have ends : "validator".toList <:+ (moduleName (Access.validatorClass name)).toList := by
    rw [moduleName, Name.toList_snakeCase, Access.validatorClass, String.toList_append,
      Name.snakeChars_append capitalised_validator]
    split
    · exact List.suffix_refl _
    · exact ⟨_, List.append_cons _ _ _ |>.symm⟩
  rw [same] at ends
  exact absurd ends (by decide)

/-! ## Directories -/

theorem mem_enclosing {parts : List String} {p : Path} :
    p ∈ Namespace.enclosing parts ↔ ∃ k, 0 < k ∧ k < parts.length ∧ p = .ofNames (parts.take k) := by
  induction parts generalizing p with
  | nil => simp [Namespace.enclosing]
  | cons first rest ih =>
    rw [Namespace.enclosing, List.mem_append, List.mem_map]
    constructor
    · rintro (⟨q, member, rfl⟩ | member)
      · obtain ⟨k, positive, short, rfl⟩ := ih.mp member
        exact ⟨k + 1, by omega, by simpa using short, rfl⟩
      · cases rest with
        | nil => simp at member
        | cons second rest =>
          obtain rfl : p = .ofNames [first] := by simpa using member
          exact ⟨1, by omega, by simp, rfl⟩
    · rintro ⟨k, positive, short, rfl⟩
      rw [List.length_cons] at short
      obtain ⟨k, rfl⟩ := Nat.exists_eq_add_of_lt positive
      rw [zero_add] at short ⊢
      by_cases zero : k = 0
      · subst zero
        cases rest with
        | nil => simp at short
        | cons second rest => exact .inr (by simp)
      · exact .inl ⟨.ofNames (rest.take k), ih.mpr ⟨k, by omega, by omega, rfl⟩, rfl⟩

theorem enclosing_nodup (parts : List String) : (Namespace.enclosing parts).Nodup := by
  induction parts with
  | nil => exact List.nodup_nil
  | cons first rest ih =>
    rw [Namespace.enclosing, List.nodup_append]
    refine ⟨?_, by split <;> simp, ?_⟩
    · refine List.pairwise_map.mpr (ih.imp_of_mem ?_)
      intro p q inP inQ different same
      obtain ⟨j, -, -, rfl⟩ := mem_enclosing.mp inP
      obtain ⟨k, -, -, rfl⟩ := mem_enclosing.mp inQ
      simp only [Path.ofNames, Path.mk.injEq, List.cons.injEq, true_and] at same
      exact different (congrArg Path.ofNames same)
    · -- the packages further down have two names at least
      rintro p inMap q inLast rfl
      obtain ⟨q, member, rfl⟩ := List.mem_map.mp inMap
      obtain ⟨k, positive, short, rfl⟩ := mem_enclosing.mp member
      have length := congrArg (·.names.length) (List.mem_ite_nil_left.mp inLast |>.2 |> List.mem_singleton.mp)
      simp only [Path.ofNames, List.length_cons, List.length_take, List.length_nil] at length
      omega

theorem batchListing_dirs_nodup (n : Namespace) (entities : List Entity) (table : Option Table) :
    ((batchListing n entities table).map (·.1)).Nodup := by
  have below : ((subListing entities table).map fun g => n.path.child g.1).Nodup := by
    have names := (subListing_nodup entities table).map (f := n.path.child)
      fun a b same => (Path.child_inj.mp same).2
    rwa [List.map_map] at names
  have notAround : ∀ p ∈ n.packages, p.names.length < n.parts.length := by
    intro p member
    obtain ⟨k, -, short, rfl⟩ := mem_enclosing.mp member
    simpa [Path.ofNames] using short
  simp only [batchListing, List.map_append, List.map_map, List.map_cons, Function.comp_def, List.map_id']
  rw [List.nodup_append, List.nodup_cons]
  refine ⟨enclosing_nodup n.parts, ⟨?_, below⟩, ?_⟩
  · intro member
    obtain ⟨g, -, same⟩ := List.mem_map.mp member
    have lengths := congrArg (·.names.length) same
    simp [Path.child] at lengths
  · rintro p around q inside rfl
    have short := notAround p around
    rcases List.mem_cons.mp inside with rfl | inside
    · exact absurd short (lt_irrefl _)
    · obtain ⟨g, -, rfl⟩ := List.mem_map.mp inside
      simp only [Namespace.path, Path.ofNames, Path.child, List.length_append] at short
      omega

theorem mem_batchListing {n : Namespace} {entities : List Entity} {table : Option Table} {dir : Path}
    {stems : List String} :
    (dir, stems) ∈ batchListing n entities table ↔
      dir ∈ n.packages ∧ stems = [] ∨ dir = n.path ∧ stems = entities.map (fun e => moduleName e.name) ∨
        ∃ sub, (sub, stems) ∈ subListing entities table ∧ dir = n.path.child sub := by
  simp only [batchListing, List.mem_append, List.mem_map, List.mem_cons, Prod.exists, Prod.mk.injEq]
  constructor
  · rintro (⟨p, member, rfl, rfl⟩ | ⟨rfl, rfl⟩ | ⟨sub, names, member, rfl, rfl⟩)
    · exact .inl ⟨member, rfl⟩
    · exact .inr (.inl ⟨rfl, rfl⟩)
    · exact .inr (.inr ⟨sub, member, rfl⟩)
  · rintro (⟨member, rfl⟩ | ⟨rfl, rfl⟩ | ⟨sub, member, rfl⟩)
    · exact .inl ⟨dir, member, rfl, rfl⟩
    · exact .inr (.inl ⟨rfl, rfl⟩)
    · exact .inr (.inr ⟨sub, stems, member, rfl, rfl⟩)

/-- A sub-package of a batch is one of the six, its modules differ and are named in snake case. -/
theorem subListing_modules {entities : List Entity} (unclashing : Unclashing entities) {table : Option Table}
    {sub : String} {stems : List String} (member : (sub, stems) ∈ subListing entities table) :
    sub ∈ Access.subPackages ∧ stems.Nodup ∧ ∀ stem ∈ stems, ModuleStem stem := by
  have snake : ∀ (f : Entity → String), ∀ stem ∈ entities.map (fun e => moduleName (f e)), ModuleStem stem := by
    intro f stem inMap
    obtain ⟨e, -, rfl⟩ := List.mem_map.mp inMap
    exact moduleName_stem (f e)
  simp only [subListing, List.mem_append, List.mem_cons, List.not_mem_nil, or_false, List.mem_ite_nil_right,
    Prod.mk.injEq] at member
  rcases member with ((⟨rfl, rfl⟩ | ⟨rfl, rfl⟩) | ⟨-, rfl, rfl⟩) | ⟨-, ⟨rfl, rfl⟩ | ⟨rfl, rfl⟩ | ⟨rfl, rfl⟩⟩
  · exact ⟨by simp [Access.subPackages], unclashing.suffixedModules capitalised_keys, snake _⟩
  · refine ⟨by simp [Access.subPackages], ?_, ?_⟩
    · rw [List.nodup_append]
      refine ⟨unclashing.suffixedModules capitalised_validator, by simp, ?_⟩
      rintro stem inMap _ here rfl
      obtain ⟨e, -, rfl⟩ := List.mem_map.mp inMap
      exact validationErrorModule_ne e.name (List.mem_singleton.mp here)
    · rw [List.forall_mem_append]
      exact ⟨snake _, List.forall_mem_singleton.mpr (by decide)⟩
  · refine ⟨by simp [Access.subPackages], unclashing.nestedModules, ?_⟩
    intro stem inMap
    obtain ⟨e, -, inNested⟩ := List.mem_flatMap.mp inMap
    obtain ⟨name, -, rfl⟩ := List.mem_map.mp inNested
    exact moduleName_stem name
  · exact ⟨by simp [Access.subPackages], by simp, List.forall_mem_singleton.mpr (by decide)⟩
  · exact ⟨by simp [Access.subPackages], by simp, List.forall_mem_singleton.mpr (by decide)⟩
  · exact ⟨by simp [Access.subPackages], unclashing.suffixedModules capitalised_repository, snake _⟩

theorem batchListing_modules {n : Namespace} {entities : List Entity} (unclashing : Unclashing entities)
    {table : Option Table} {dir : Path} {stems : List String}
    (member : (dir, stems) ∈ batchListing n entities table) :
    stems.Nodup ∧ ∀ stem ∈ stems, ModuleStem stem := by
  rcases mem_batchListing.mp member with ⟨-, rfl⟩ | ⟨-, rfl⟩ | ⟨sub, inSub, -⟩
  · simp
  · refine ⟨unclashing.entityModules, ?_⟩
    intro stem inMap
    obtain ⟨e, -, rfl⟩ := List.mem_map.mp inMap
    exact moduleName_stem e.name
  · exact (subListing_modules unclashing inSub).2

theorem batchPaths_nodup {n : Namespace} {entities : List Entity} (unclashing : Unclashing entities)
    {table : Option Table} : (listingPaths (batchListing n entities table)).Nodup := by
  refine listingPaths_nodup (batchListing_dirs_nodup n entities table) ?_
  rintro ⟨dir, stems⟩ member
  obtain ⟨distinct, snake⟩ := batchListing_modules unclashing member
  refine List.nodup_cons.mpr ⟨?_, distinct⟩
  intro inStems
  exact absurd (snake _ inStems).head (by decide)

/-! ## What holds of every plan -/

/-- The names of a path without regard to letter case. -/
def Path.caseless (p : Path) : List (List Char) := p.names.map fun name => Text.lower name.toList

/-- The places of planned files: package files of the packages around, files of the package, and files of
its sub-packages. -/
inductive Placed (n : Namespace) : Path → Prop
  | around (k : Nat) (positive : 0 < k) (proper : k < n.parts.length) :
      Placed n ((Path.ofNames (n.parts.take k)).child packageFile)
  | inPackage (file : String) : Placed n (n.path.child file)
  | inSubPackage (sub file : String) (known : sub ∈ Access.subPackages) :
      Placed n ((n.path.child sub).child file)

/-- Paths that form a package: they differ even without regard to letter case, they are strictly increasing,
they lie at their places and have admissible names, and every directory they use is a package. -/
structure WellLaidOut (n : Namespace) (paths : List Path) : Prop where
  distinct : paths.Nodup
  distinctCaseless : (paths.map Path.caseless).Nodup
  increasing : paths.Pairwise fun p q => p.precedes q
  placed : ∀ p ∈ paths, Placed n p
  named : ∀ p ∈ paths, p.name ≠ packageFile →
    ∃ stem : String, p.name = stem ++ ".py" ∧ ∀ c ∈ stem.toList, Name.isModuleChar c
  packaged : ∀ p ∈ paths, p.parent.child packageFile ∈ paths

/-- A planned file is a module of some directory of the package, named in snake case unless it makes the
directory a package. -/
theorem placed_of_mem {n : Namespace} {entities : List Entity} (unclashing : Unclashing entities)
    {table : Option Table} {p : Path} (member : p ∈ listingPaths (batchListing n entities table)) :
    Placed n p ∧ (p.name = packageFile ∨ ∃ stem, p.name = stem ++ ".py" ∧ ModuleStem stem) := by
  obtain ⟨dir, stems, inListing, stem, inStems, rfl⟩ := mem_listingPaths.mp member
  have named : (dir.module stem).name = packageFile ∨
      ∃ stem', (dir.module stem).name = stem' ++ ".py" ∧ ModuleStem stem' := by
    rw [Path.module, Path.name_child]
    rcases List.mem_cons.mp inStems with rfl | inStems
    · exact .inl rfl
    · exact .inr ⟨stem, rfl, (batchListing_modules unclashing inListing).2 stem inStems⟩
  refine ⟨?_, named⟩
  rcases mem_batchListing.mp inListing with ⟨around, rfl⟩ | ⟨rfl, -⟩ | ⟨sub, inSub, rfl⟩
  · obtain ⟨k, positive, short, rfl⟩ := mem_enclosing.mp around
    obtain rfl := List.mem_singleton.mp inStems
    exact .around k positive short
  · exact .inPackage _
  · exact .inSubPackage sub _ (subListing_modules unclashing inSub).1

/-- Small letters, digits, underscores and dots are their own small letters. -/
theorem lower_eq_self {cs : List Char} (plain : ∀ c ∈ cs, Name.isModuleChar c ∨ c = '.') : Text.lower cs = cs := by
  induction cs with
  | nil => rfl
  | cons c rest ih =>
    have small : Text.lowerChar c = [c] := by
      have ascii : c.toNat < 0x80 ∧ c.isUpper = false := by
        rcases plain c List.mem_cons_self with module | rfl
        · simp only [Name.isModuleChar, Char.isLower, Char.isDigit, Char.isUpper, Char.toNat, ge_iff_le,
            UInt32.le_iff_toNat_le, Bool.or_eq_true, Bool.and_eq_true, decide_eq_true_eq, beq_iff_eq] at module ⊢
          rcases module with (⟨low, high⟩ | ⟨low, high⟩) | rfl
          · simp at *; omega
          · simp at *; omega
          · decide
        · decide
      rw [Text.lowerChar, if_pos ascii.1, Char.toLower_eq_of_not_isUpper (by simp [ascii.2])]
    rw [Text.lower_cons, small, ih fun d member => plain d (List.mem_cons_of_mem _ member)]
    rfl

/-- A text that letter case does not matter for. -/
def Plain (name : String) : Prop := Text.lower name.toList = name.toList

theorem plain_of_mem_subPackages {sub : String} (known : sub ∈ Access.subPackages) : Plain sub := by
  have small : Access.subPackages.all fun sub => sub.toList.all Name.isModuleChar := by decide
  exact lower_eq_self fun c member => .inl (List.all_eq_true.mp (List.all_eq_true.mp small sub known) c member)

theorem plain_name {name : String} (named : name = packageFile ∨ ∃ stem, name = stem ++ ".py" ∧ ModuleStem stem) :
    Plain name := by
  refine lower_eq_self ?_
  rcases named with rfl | ⟨stem, rfl, module⟩
  · simp [packageFile, Name.isModuleChar]
  · intro c member
    rw [String.toList_append, List.mem_append] at member
    rcases member with member | member
    · exact .inl (List.all_eq_true.mp module.chars c member)
    · revert c
      simp [Name.isModuleChar]

theorem Path.caseless_child (p : Path) (name : String) :
    (p.child name).caseless = p.caseless ++ [Text.lower name.toList] := by
  simp [Path.caseless, Path.child]

theorem Plain.inj {a b : String} (plain : Plain a) (plain' : Plain b)
    (same : Text.lower a.toList = Text.lower b.toList) : a = b :=
  String.toList_inj.mp (by rw [← plain, ← plain', same])

theorem Path.caseless_length (p : Path) : p.caseless.length = p.names.length := List.length_map _

@[simp] theorem Path.length_names_child (p : Path) (name : String) :
    (p.child name).names.length = p.names.length + 1 := by
  simp [Path.child]

@[simp] theorem Namespace.length_names_path (n : Namespace) : n.path.names.length = n.parts.length := rfl

@[simp] theorem Path.names_ofNames (names : List String) : (Path.ofNames names).names = names := rfl

/-- The path of a planned file is determined by its names without regard to letter case: what lies below the
package is in small letters, and what lies around it is determined by how deep it lies. -/
theorem Placed.caseless_inj {n : Namespace} {p q : Path} (placed : Placed n p) (placed' : Placed n q)
    (plain : Plain p.name) (plain' : Plain q.name) (same : p.caseless = q.caseless) : p = q := by
  -- the depth tells the package from its sub-packages and from every package around
  have lengths := congrArg List.length same
  rw [Path.caseless_length, Path.caseless_length] at lengths
  cases placed with
  | around k positive proper =>
    cases placed' with
    | around k' positive' proper' =>
      simp only [Path.length_names_child, Path.names_ofNames, List.length_take] at lengths
      obtain rfl : k = k' := by omega
      rfl
    | inPackage file => simp at lengths; omega
    | inSubPackage sub file known => simp at lengths; omega
  | inPackage file =>
    cases placed' with
    | around k' positive' proper' => simp at lengths; omega
    | inPackage file' =>
      rw [Path.caseless_child, Path.caseless_child, List.append_cancel_left_eq, List.singleton_inj] at same
      rw [Path.name_child] at plain plain'
      rw [plain.inj plain' same]
    | inSubPackage sub file known => simp at lengths
  | inSubPackage sub file known =>
    cases placed' with
    | around k' positive' proper' => simp at lengths; omega
    | inPackage file' => simp at lengths
    | inSubPackage sub' file' known' =>
      simp only [Path.caseless_child, List.append_assoc, List.append_cancel_left_eq, List.singleton_append,
        List.cons.injEq, and_true] at same
      rw [Path.name_child] at plain plain'
      rw [(plain_of_mem_subPackages known).inj (plain_of_mem_subPackages known') same.1, plain.inj plain' same.2]

/-- A planned path is relative, so that it is ordered by all of its names. -/
theorem Placed.orderNames {n : Namespace} {p : Path} (placed : Placed n p) : p.orderNames = p.names := by
  cases placed <;> rfl

theorem Placed.eq_of_names {n : Namespace} {p q : Path} (placed : Placed n p) (placed' : Placed n q)
    (same : p.names = q.names) : p = q := by
  have relative : ∀ {r : Path}, Placed n r → r = .ofNames r.names := by
    rintro r (_ | _ | _) <;> rfl
  rw [relative placed, relative placed', same]

/-- The paths of the sources of a plan are those of its listing. -/
theorem sourcePaths_perm (n : Namespace) (entities : List Entity) (table : Option Table) :
    ((batchSources n entities table).map (·.path)).Perm (listingPaths (batchListing n entities table)) := by
  rw [batchSources, List.map_map]
  exact batchPaths_perm n entities table

/-- The sources of a batch without clashes have different names to be ordered by. -/
theorem orderNames_nodup {n : Namespace} {entities : List Entity} {table : Option Table}
    (unclashing : Unclashing entities) :
    ((batchSources n entities table).map fun s => s.path.orderNames).Nodup := by
  have listed := sourcePaths_perm n entities table
  have placed : ∀ {s}, s ∈ batchSources n entities table → Placed n s.path :=
    fun member => (placed_of_mem unclashing (listed.mem_iff.mp (List.mem_map_of_mem member))).1
  have distinct := List.pairwise_map.mp (listed.nodup_iff.mpr (batchPaths_nodup unclashing))
  refine List.pairwise_map.mpr (distinct.imp_of_mem ?_)
  intro s t inS inT different same
  rw [(placed inS).orderNames, (placed inT).orderNames] at same
  exact different ((placed inS).eq_of_names (placed inT) same)

/-- The paths of a batch without clashes form a package, once they are sorted. -/
theorem batch_wellLaidOut {n : Namespace} {entities : List Entity} {table : Option Table}
    (unclashing : Unclashing entities) :
    WellLaidOut n ((Path.sortBy (·.path) (batchSources n entities table)).map (·.path)) := by
  have sorted := Path.sortBy_perm SourceFile.path (batchSources n entities table)
  have listed := (sorted.map SourceFile.path).trans (sourcePaths_perm n entities table)
  have inListing : ∀ {p}, p ∈ (Path.sortBy (·.path) (batchSources n entities table)).map (·.path) →
      Placed n p ∧ (p.name = packageFile ∨ ∃ stem, p.name = stem ++ ".py" ∧ ModuleStem stem) :=
    fun member => placed_of_mem unclashing (listed.mem_iff.mp member)
  have distinct := listed.nodup_iff.mpr (batchPaths_nodup unclashing)
  refine ⟨distinct, ?_, ?_, fun p member => (inListing member).1, ?_, ?_⟩
  · refine List.pairwise_map.mpr (distinct.imp_of_mem ?_)
    intro p q inP inQ different same
    exact different ((inListing inP).1.caseless_inj (inListing inQ).1 (plain_name (inListing inP).2)
      (plain_name (inListing inQ).2) same)
  · exact List.pairwise_map.mpr (Path.sortBy_pairwise_precedes _ (orderNames_nodup unclashing))
  · intro p member notPackage
    obtain ⟨stem, named, module⟩ := (inListing member).2.resolve_left notPackage
    exact ⟨stem, named, List.all_eq_true.mp module.chars⟩
  · -- every directory of the listing comes with its own package file
    intro p member
    obtain ⟨dir, stems, inBatch, stem, -, rfl⟩ := mem_listingPaths.mp (listed.mem_iff.mp member)
    rw [Path.module, Path.parent_child]
    exact listed.mem_iff.mpr (mem_listingPaths.mpr ⟨dir, stems, inBatch, packageModule, by simp, rfl⟩)

/-- The paths of every plan form a package. -/
theorem plan_wellLaidOut {o : Options} {n : Namespace} {schemas : List Schema} {table : Option Table}
    {files : List RenderedFile} (planned : (plan o n schemas table).result = .ok files) :
    WellLaidOut n (files.map (·.path)) := by
  obtain ⟨entities, described, rendered⟩ := plan_ok planned
  rw [SourceFile.Rendering.paths rendered]
  exact batch_wellLaidOut (checkTypeNames_ok.mp described.typesChecked)

/-! ## A batch that is accepted -/

/-- The table of the orders, with an index by state. -/
def shopTable : Table := ⟨"orders", none, none, [⟨"by-state", "state", some "total"⟩], []⟩

def shopNamespace : Namespace := ⟨["shop", "data"], by decide +kernel⟩

def Options.unformatted : Options := ⟨false, 120⟩

theorem exists_ok_of_isOk {ε α : Type} {x : Except ε α} (ok : x.isOk) : ∃ a, x = .ok a := by
  cases x with
  | error e => cases ok
  | ok a => exact ⟨a, rfl⟩

theorem shopPlan_ok :
    ∃ files, (plan .unformatted shopNamespace [shopOrder] (some shopTable)).result = .ok files :=
  exists_ok_of_isOk (by decide +kernel)

theorem shopPlan_wellLaidOut :
    ∃ files, (plan .unformatted shopNamespace [shopOrder] (some shopTable)).result = .ok files ∧
      WellLaidOut shopNamespace (files.map (·.path)) := by
  obtain ⟨files, planned⟩ := shopPlan_ok
  exact ⟨files, planned, plan_wellLaidOut planned⟩

end Tablewright
