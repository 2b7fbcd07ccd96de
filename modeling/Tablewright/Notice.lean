import Tablewright.Value

/-!
# Notices

What a run reports while it works: each notice says what happened, and from that follow how serious it is,
which part of the program speaks, and the words.

* `Level`, `Area`, `Notice`: the vocabulary of reports.
* `Notice.level`, `Notice.area`, `Notice.text`: what follows from a notice.
* `Noted`: values together with the notices of their computation, in order.

The words of a notice about source that cannot be laid out, or about a faulty document, hold a mark such
as `<yaml>` in the place of the details.
-/

namespace Tablewright

/-- How serious a notice is. -/
inductive Level where
  | debug
  | info
  | warning
  | error
  | critical
  deriving DecidableEq, Repr, Inhabited

namespace Level

def word : Level → String
  | debug => "DEBUG"
  | info => "INFO"
  | warning => "WARNING"
  | error => "ERROR"
  | critical => "CRITICAL"

/-- The place of a level in the order of seriousness. -/
def rank : Level → Nat
  | debug => 0
  | info => 1
  | warning => 2
  | error => 3
  | critical => 4

def ofWord? (word : String) : Option Level :=
  [debug, info, warning, error, critical].find? (·.word == word)

end Level

/-- The part of the program that a notice comes from. -/
inductive Area where
  | naming
  | typeMapping
  | records
  | keys
  | validators
  | tableConfig
  | planning
  | formatting
  | loading
  | settings
  | commandLine
  | wording
  deriving DecidableEq, Repr

/-- Something that a run reports. -/
inductive Notice where
  /-- A key attribute is looked up by name and no field declares it. -/
  | undeclaredKeyName (storageName : String)
  | unknownType (typeName : String)
  | undeclaredKey (storageName entity : String)
  | enumDefaultSkipped (shown record identifier : String)
  | defaultSkipped (literal record identifier : String)
  | keysEmitted (entity : String) (components : Nat)
  | nothingToValidate (entity : String)
  | arnOverridable (table : String)
  /-- A word has no plural, so that the ending `s` has to do. -/
  | noPlural (word : String)
  | described (count : Nat)
  | noTable
  | fileFailed (path cause : String)
  | fileWritten (path : String)
  | filesWritten (count : Nat) (directory : String)
  | formatted (path : String)
  | unformattable
  | leftUnformatted (path : String)
  | documentRead (origin : String)
  | schemaLoaded (entity : String) (fields : Nat)
  | tableLoaded (table : String) (indexes : Nat)
  | settingsUnreadable (path : String)
  | settingsFallback
  | settingsRead (path : String)
  | settingsNotMapping (path : String)
  | settingsMissing (path : String)
  | settingsOverridden (names : List String)
  | settingsValidating
  | settingsParsed
  | settingsRejected
  | settingsAccepted
  | noTableConfigured
  /-- The command line speaks for itself. -/
  | spoken (level : Level) (text : String)
  deriving Repr

namespace Notice

/-- How serious a notice is. -/
def level : Notice → Level
  | undeclaredKeyName _ | unknownType _ | keysEmitted _ _ | nothingToValidate _ | arnOverridable _
  | described _ | formatted _ | documentRead _ | settingsRead _ | settingsOverridden _ | settingsParsed
  | noTableConfigured => .debug
  | noTable | fileWritten _ | filesWritten _ _ | schemaLoaded _ _ | tableLoaded _ _ | settingsValidating
  | settingsAccepted => .info
  | undeclaredKey _ _ | enumDefaultSkipped _ _ _ | defaultSkipped _ _ _ | leftUnformatted _
  | settingsFallback | settingsNotMapping _ | settingsMissing _ => .warning
  | noPlural _ | fileFailed _ _ | unformattable | settingsUnreadable _ => .error
  | settingsRejected => .critical
  | spoken level _ => level

/-- The part of the program that a notice comes from. -/
def area : Notice → Area
  | undeclaredKeyName _ => .naming
  | unknownType _ | undeclaredKey _ _ => .typeMapping
  | enumDefaultSkipped _ _ _ | defaultSkipped _ _ _ => .records
  | keysEmitted _ _ => .keys
  | nothingToValidate _ => .validators
  | arnOverridable _ => .tableConfig
  | described _ | noTable | fileFailed _ _ | fileWritten _ | filesWritten _ _ => .planning
  | formatted _ | unformattable | leftUnformatted _ => .formatting
  | documentRead _ | schemaLoaded _ _ | tableLoaded _ _ => .loading
  | settingsUnreadable _ | settingsFallback | settingsRead _ | settingsNotMapping _ | settingsMissing _
  | settingsOverridden _ | settingsValidating | settingsParsed | settingsRejected | settingsAccepted
  | noTableConfigured => .settings
  | spoken _ _ => .commandLine
  | noPlural _ => .wording

/-- The ending that makes `entity` agree with a count. -/
def entityEnding (count : Nat) : String := if count = 1 then "y" else "ies"

/-- The words of a notice. -/
def text : Notice → String
  | undeclaredKeyName a => s!"Key attribute '{a}' is not a declared field; using camelCase conversion"
  | unknownType t => s!"Unrecognized schema type '{t}' degrades to Any"
  | undeclaredKey a e => s!"Key attribute '{a}' is not declared on {e}; treating it as a string"
  | enumDefaultSkipped d r i =>
    s!"Default '{d}' of {r}.{i} is not one of its enum values; skipping default"
  | defaultSkipped d r i =>
    s!"Default {d} of {r}.{i} cannot be expressed as a literal; skipping default"
  | keysEmitted e n => s!"Emitting key helper for {e} ({n} key component(s))"
  | nothingToValidate e => s!"{e} declares no required fields or constraints; validator is a no-op"
  | arnOverridable t => s!"Table ARN of '{t}' can be overridden via DYNAMODB_TABLE_ARN"
  | noPlural w =>
    s!"Inflect pluralization failed for '{w}': list index out of range. Falling back to adding 's'."
  | described n => s!"Described {n} entit{entityEnding n}"
  | noTable => "No table metadata given; skipping client, config and repository modules"
  | fileFailed p c => s!"Error generating file '{p}': {c}"
  | fileWritten p => s!"Generated file: {p}"
  | filesWritten n d => s!"Successfully generated {n} files under {d}"
  | formatted p => s!"Formatted code using Black: {p}"
  | unformattable => "Could not format Python code using Black: <black>"
  | leftUnformatted p => s!"Writing unformatted Python code for {p} due to Black error."
  | documentRead o => s!"Read document from {o}"
  | schemaLoaded e n => s!"Loaded schema for entity '{e}' ({n} fields)"
  | tableLoaded t n => s!"Loaded table metadata for '{t}' ({n} secondary index(es))"
  | settingsUnreadable p => s!"Error parsing YAML file {p}: <yaml>"
  | settingsFallback => "Proceeding with defaults and CLI arguments only."
  | settingsRead p => s!"Loaded configuration from {p}"
  | settingsNotMapping p => s!"Content in config file {p} is not a dictionary. Ignoring file content."
  | settingsMissing p => s!"Config file not found at {p}. Using defaults and CLI arguments."
  | settingsOverridden names =>
    "Overridden config keys from CLI arguments: " ++ (Value.list (names.map .text)).literal
  | settingsValidating => "Validating final configuration..."
  | settingsParsed => "Configuration dictionary parsed and validated successfully against schema."
  | settingsRejected =>
    "Configuration validation failed! Please check your config file or arguments."
  | settingsAccepted => "Configuration loaded and validated successfully."
  | noTableConfigured => "No table metadata configured; repositories will not be generated."
  | spoken _ t => t

end Notice

/-- A value with the notices of its computation, first one first. -/
structure Noted (α : Type) where
  value : α
  notices : List Notice

namespace Noted

def tell (n : Notice) : Noted Unit := ⟨(), [n]⟩

def tellAll (ns : List Notice) : Noted Unit := ⟨(), ns⟩

instance : Monad Noted where
  pure a := ⟨a, []⟩
  bind x f := ⟨(f x.value).value, x.notices ++ (f x.value).notices⟩

@[simp] theorem value_pure {α : Type} (a : α) : (pure a : Noted α).value = a := rfl

@[simp] theorem notices_pure {α : Type} (a : α) : (pure a : Noted α).notices = [] := rfl

@[simp] theorem value_bind {α β : Type} (x : Noted α) (f : α → Noted β) :
    (x >>= f).value = (f x.value).value := rfl

@[simp] theorem notices_bind {α β : Type} (x : Noted α) (f : α → Noted β) :
    (x >>= f).notices = x.notices ++ (f x.value).notices := rfl

/-- The results for the members of a list, in order, with the notices of each. -/
def each {α β : Type} (f : α → Noted β) : List α → Noted (List β)
  | [] => ⟨[], []⟩
  | a :: rest => ⟨(f a).value :: (each f rest).value, (f a).notices ++ (each f rest).notices⟩

end Noted

end Tablewright
