import Tablewright.Format.Spacing
import Tablewright.Format.Split

/-!
# Laying out source

* `Format.layOutOnce`: the layout of a source; `Format.layOut`: the layout of that once more, which is final.

Source that is not in the language of generated modules has no layout.
-/

namespace Tablewright.Format

def isFormattedText (l : Leaf) : Bool := l.kind == .literal && (Literal.ofText l.text).isFormatted

/-- The room for the lines of some rows. A comma may follow a spread argument where the source is of a recent
enough language, which formatted texts tell. -/
def limitFor (columns : Int) (rows : List Row) : Limit :=
  ⟨columns, rows.any fun r => r.leaves.any isFormattedText⟩

def rowText (limit : Limit) (r : Row) : String :=
  let lines := Line.layOut limit ⟨r.depth, r.leaves, false, .all, false⟩
  String.join (lines.map fun line => line.text ++ "\n")

def layOutOnce (columns : Int) (source : String) : Option String := do
  let rows ← Row.all? columns source
  let limit := limitFor columns rows
  pure (String.join ((Spacing.rows rows).map fun (blanks, r) =>
    String.ofList (List.replicate blanks '\n') ++ rowText limit r))

def layOut (columns : Int) (source : String) : Option String := do
  let first ← layOutOnce columns source
  if first == source then pure first else layOutOnce columns first

end Tablewright.Format
