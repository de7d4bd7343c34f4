import TemplateStyler.Toml.Statement

/-!
# Reading TOML

* `Toml.read?` is the table that a text describes. It fails where the text breaks the grammar, gives
  a name twice, or adds to a table that is closed.
-/

namespace TemplateStyler.Toml

/-- The tables so far and the name of the open one. -/
structure Reading where
  entries : Draft.Entries := []
  here : List Text := []
  deriving Repr, Inhabited

/-- The tables after a statement. -/
def Reading.after? (r : Reading) : Statement → Option Reading
  | .header path => (Draft.openTable path r.entries).map fun es => ⟨es, path⟩
  | .element path => (Draft.openElement path r.entries).map fun es => ⟨es, path⟩
  | .pair path v => (Draft.within (Draft.put v path) r.here r.entries).map fun es => ⟨es, r.here⟩

/-- The entries of the table that a text describes. -/
def read? (cs : List Char) : Option (List (Text × Setting)) := do
  let r ← (← statements? cs).foldlM Reading.after? {}
  return Draft.settings r.entries

end TemplateStyler.Toml
