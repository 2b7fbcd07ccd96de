import Tablewright.Text.Case
import Tablewright.Text.Classes
import Tablewright.Access.Client
import Tablewright.Access.Conversion
import Tablewright.Access.Keys
import Tablewright.Access.Record
import Tablewright.Access.Repository
import Tablewright.Access.TableConfig
import Tablewright.Access.Validator
import Tablewright.CommandLine.Arguments
import Tablewright.CommandLine.Basic
import Tablewright.Proofs.Lists
import Tablewright.Proofs.Files.Order
import Tablewright.Proofs.Name.Snake
import Tablewright.Proofs.Plan.Outcome
import Tablewright.Proofs.Plan.Sources
import Tablewright.Proofs.Plan.Clashes
import Tablewright.Proofs.Text.Sorted
import Tablewright.Proofs.Plan.Layout
import Tablewright.Proofs.Schema.Description
import Tablewright.Proofs.Source.Scoping
import Tablewright.Proofs.Access.Conversion
import Tablewright.Proofs.Access.Record
import Tablewright.Proofs.Access.Validator
import Tablewright.Proofs.Access.Client
import Tablewright.Proofs.Access.Keys
import Tablewright.Proofs.Access.Repository
import Tablewright.Proofs.Access.TableConfig
import Tablewright.Proofs.Plan.Names
import Tablewright.Proofs.Source.Imports
import Tablewright.Proofs.Access.Imports
import Tablewright.Proofs.Plan.Imports
import Tablewright.Proofs.Plan.Importable
import Tablewright.Proofs.Schema.Nesting
import Tablewright.Proofs.Source.Datum
import Tablewright.Proofs.Source.Running
import Tablewright.Proofs.Access.RoundTrip
import Tablewright.Proofs.Name.Fresh
import Tablewright.Proofs.Name.Camel
import Tablewright.Proofs.Schema.Identifiers
import Tablewright.Proofs.Access.Members
import Tablewright.Proofs.Access.Validation
import Tablewright.Proofs.Source.Instances
import Tablewright.Proofs.Access.RecordClass
import Tablewright.Proofs.Access.Instances
import Tablewright.Proofs.Access.Defaults
import Tablewright.Proofs.Access.Building
import Tablewright.Proofs.Access.Items
import Tablewright.Proofs.Access.Apart
import Tablewright.Proofs.Access.Bindings
import Tablewright.Proofs.Plan.Shadowing
import Tablewright.Proofs.Access.Capture
import Tablewright.Proofs.Source.Printing
import Tablewright.Proofs.Access.Printing
import Tablewright.Proofs.Plan.Passes
import Tablewright.Proofs.Plan.Acceptance
import Tablewright.Proofs.Plan.Composing
import Tablewright.Proofs.Files.Tree
import Tablewright.Proofs.Plan.Runs
import Tablewright.Proofs.Schema.Keys
import Tablewright.Proofs.Access.KeyNames
import Tablewright.Proofs.Plan.KeyNames
import Tablewright.Proofs.Name.Constant
import Tablewright.Proofs.Access.HelperClasses
import Tablewright.Proofs.Plan.Indexes
import Tablewright.Proofs.Access.Lookups
import Tablewright.Proofs.Source.Naming
import Tablewright.Proofs.Access.Naming
import Tablewright.Proofs.Name.Identifier
import Tablewright.Proofs.Schema.Spelling
import Tablewright.Proofs.Access.Spelling
import Tablewright.Proofs.Plan.Naming
import Tablewright.Proofs.Source.Mangling
import Tablewright.Proofs.Access.Mangling
import Tablewright.Proofs.Plan.Mangling
import Tablewright.Proofs.Access.Elementwise
import Tablewright.Proofs.CommandLine.Outcome
import Tablewright.Proofs.Document.Forms
import Tablewright.Proofs.Document.Accepted
import Tablewright.Proofs.Document.Portable
import Tablewright.Proofs.Yaml.Places
import Tablewright.Proofs.Yaml.Quotes
import Tablewright.Proofs.Yaml.Numerals
import Tablewright.Proofs.Yaml.Flow
import Tablewright.Proofs.Yaml.Nodes
import Tablewright.Proofs.Document.Agreement
import Tablewright.Proofs.Schema.KeyLookups
import Tablewright.Proofs.Access.InitialValues
import Tablewright.Proofs.Access.Queries
import Tablewright.Proofs.Source.Dialogue
import Tablewright.Proofs.Access.Pages
import Tablewright.Proofs.Name.SnakeForm
import Tablewright.Proofs.Schema.Resolution
import Tablewright.Proofs.Access.EnumClass
import Tablewright.Proofs.Source.Comparing
import Tablewright.Proofs.Source.Equality
import Tablewright.Proofs.Access.Comparison
import Tablewright.Proofs.Access.FieldValues
import Tablewright.Proofs.Access.HashAgreement
import Tablewright.Proofs.Source.Calls
import Tablewright.Proofs.Access.Patterns
import Tablewright.Proofs.Access.AttributeNames
import Tablewright.Proofs.Document.Writing
import Tablewright.Proofs.Document.Renaming
import Tablewright.Proofs.Name.Passes
import Tablewright.Proofs.Text.Utf8
import Tablewright.Proofs.Yaml.Faults
import Tablewright.Proofs.Document.Numerals
import Tablewright.Proofs.Document.Outcome
import Tablewright.Proofs.Settings.Outcome
import Tablewright.Proofs.Number.Nearest
import Tablewright.Proofs.Number.Rounding
import Tablewright.Proofs.Document.Places
import Tablewright.Proofs.Access.Bounds
