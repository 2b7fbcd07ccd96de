import Tablewright.Access.Client
import Tablewright.Access.Keys
import Tablewright.Access.Record
import Tablewright.Access.Repository
import Tablewright.Access.TableConfig
import Tablewright.Access.Validator
import Tablewright.Source.Printer

/-!
# Emitters

The kinds of generated files, and what makes their source.

* `Category`: the kinds of files; `Emitter`: the makers of their source, found through a `Registry`.
* `Material`: what a file is made of; `Lack`: what is missing for it.
* `Emitter.source`: the source of a file.
-/

namespace Tablewright

/-- The kinds of generated files. -/
inductive Category where
  | entity
  | nested
  | enum
  | keys
  | validationError
  | validator
  | repository
  | client
  | config
  | package
  deriving DecidableEq, Repr, Inhabited

namespace Category

def all : List Category :=
  [entity, nested, enum, keys, validationError, validator, repository, client, config, package]

/-- The name of a kind. -/
def name : Category → String
  | entity => "entity"
  | nested => "nested"
  | enum => "enum"
  | keys => "keys"
  | validationError => "validation_error"
  | validator => "validator"
  | repository => "repository"
  | client => "client"
  | config => "config"
  | package => "package"

def ofName? (name : String) : Option Category := all.find? (·.name == name)

end Category

/-- What makes the source of a file. -/
inductive Emitter where
  | record
  | enum
  | keys
  | validationError
  | validator
  | repository
  | client
  | config
  | emptyModule
  deriving DecidableEq, Repr

/-- The maker of a kind of file; entities and nested records are made alike. -/
def Category.emitter : Category → Emitter
  | entity | nested => .record
  | enum => .enum
  | keys => .keys
  | validationError => .validationError
  | validator => .validator
  | repository => .repository
  | client => .client
  | config => .config
  | package => .emptyModule

/-- Emitters by the name of the kind of file they make. -/
abbrev Registry := List (String × Emitter)

namespace Registry

/-- The emitters of all kinds of files. -/
def standard : Registry := Category.all.map fun c => (c.name, c.emitter)

/-- Enters an emitter; one of the same name is replaced. -/
def register (r : Registry) (name : String) (e : Emitter) : Registry :=
  (name, e) :: r.filter (·.1 != name)

def find? (r : Registry) (name : String) : Option Emitter := r.lookup name

end Registry

/-- What files are made of. -/
structure Material where
  entities : List Entity
  table : Option Table
  /-- The record, where it is not that of the first entity. -/
  record : Option Record
  enum : Option EnumType

namespace Material

def ofEntities (entities : List Entity) : Material := ⟨entities, none, none, none⟩

end Material

/-- Why a file cannot be made. -/
inductive Lack where
  | noEntity
  | noTable
  | noEnum
  | unknownCategory (name : String)
  | unprintable (fault : Source.PrintFault)
  deriving DecidableEq, Repr

def Lack.message : Lack → String
  | noEntity => "list index out of range"
  | noTable => "'table_binding'"
  | noEnum => "'enum'"
  | unknownCategory name => s!"Unknown generator type: {name}"
  | unprintable fault => fault.message

namespace Emitter

open Access
open Source (Module)

/-- A module, once what it is made of is there. -/
def given {α : Type} (x : Option α) (lack : Lack) (f : α → Noted Module) : Noted (Except Lack Module) :=
  match x with
  | some a => do pure (.ok (← f a))
  | none => pure (.error lack)

/-- The module that an emitter makes; an empty module has no tree. -/
def module? (m : Material) : Emitter → Option (Noted (Except Lack Module))
  | record => some (given m.entities.head? .noEntity fun e => recordModule e.enums (m.record.getD e.record))
  | enum => some (given m.enum .noEnum fun t => pure (enumModule t))
  | keys => some (given m.entities.head? .noEntity fun e => keysModule e m.table)
  | validationError => some (pure (.ok validationErrorSource))
  | validator => some (given m.entities.head? .noEntity fun e => validatorModule e)
  | repository => some (match m.entities.head?, m.table with
    | some e, some t => given (some e) .noEntity fun e => repositoryModule e t
    | none, _ => pure (.error .noEntity)
    | _, none => pure (.error .noTable))
  | client => some (pure (.ok clientSource))
  | config => some (given m.table .noTable fun t => tableConfigModule t m.entities)
  | emptyModule => none

/-- The source that an emitter makes, without a line feed at the end. -/
def source (m : Material) (e : Emitter) : Noted (Except Lack String) :=
  match e.module? m with
  | none => pure (.ok "")
  | some made => do
    pure (match ← made with
      | .error lack => .error lack
      | .ok module =>
        match module.print with
        | .ok text => .ok text
        | .error fault => .error (.unprintable fault))

end Emitter

end Tablewright
