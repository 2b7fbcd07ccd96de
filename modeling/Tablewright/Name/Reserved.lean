import Tablewright.Text.Classes

/-!
# Reserved names

The names that generated source cannot use for a field or a package.

* `keywords`: the words of the target language.
* `reserved`: the keywords, the implicit first parameters of methods, and the members that every
  generated record class defines itself.
* `isFieldIdentifier`, `isPackagePart`: which names can be used as they are.
-/

namespace Tablewright.Name

def keywords : List String :=
  ["False", "None", "True", "and", "as", "assert", "async", "await", "break", "class", "continue",
   "def", "del", "elif", "else", "except", "finally", "for", "from", "global", "if", "import", "in",
   "is", "lambda", "nonlocal", "not", "or", "pass", "raise", "return", "try", "while", "with", "yield"]

/-- The implicit first parameters of generated methods. -/
def implicitParameters : List String := ["self", "cls"]

/-- The members that a generated record class or its builder defines; a field of one of these names would
replace the member. -/
def generatedMembers : List String :=
  ["builder", "Builder", "build", "to_item", "from_item", "PARTITION_KEY", "SORT_KEY", "ATTRIBUTE_NAMES"]

def reserved : List String := keywords ++ implicitParameters ++ generatedMembers

def isKeyword (name : String) : Bool := keywords.contains name

/-- Whether a name is reserved. -/
def isReserved (name : String) : Bool := reserved.contains name

/-- Whether a name can be used for a field as it is. -/
def isFieldIdentifier (name : String) : Bool := Text.isIdentifier name && !isReserved name

/-- Whether a name can be one dotted part of a package. -/
def isPackagePart (name : String) : Bool := Text.isIdentifier name && !isKeyword name

end Tablewright.Name
