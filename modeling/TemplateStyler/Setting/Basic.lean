import TemplateStyler.Number.Double
import TemplateStyler.Text.Basic

/-!
# Settings

A setting is a value of a configuration. Tables keep their entries in the order in which they came.

* `Setting.entries` and `Setting.items` are the parts of a table and of a list, and nothing for any
  other setting.
* `Setting.lookup` and `Setting.assign` read and write an entry.
-/

namespace TemplateStyler

/-- A value of a configuration. -/
inductive Setting where
  | nothing
  | flag (b : Bool)
  | whole (n : Int)
  | real (x : Double)
  | text (t : Text)
  | list (items : List Setting)
  | table (entries : List (Text × Setting))
  deriving Repr, Inhabited

namespace Setting

/-- The entries of a table. -/
def entries : Setting → List (Text × Setting)
  | .table es => es
  | _ => []

/-- The items of a list. -/
def items : Setting → List Setting
  | .list xs => xs
  | _ => []

/-- The setting under a name. -/
def lookup {α : Type} (name : Text) (entries : List (Text × α)) : Option α :=
  (entries.find? fun e => e.1 = name).map Prod.snd

/-- The entries with a setting under a name, in its old place where the name had one. -/
def assign {α : Type} (name : Text) (v : α) : List (Text × α) → List (Text × α)
  | [] => [(name, v)]
  | e :: es => if e.1 = name then (name, v) :: es else e :: assign name v es

theorem lookup_assign {α : Type} (name : Text) (v : α) (es : List (Text × α)) :
    lookup name (assign name v es) = some v := by
  induction es with
  | nil => simp [assign, lookup]
  | cons e es ih =>
    unfold assign
    split
    · simp [lookup]
    · next h => simpa [lookup, List.find?_cons, h] using ih

/-- A table with entries in the given order. -/
def ofEntries (entries : List (String × Setting)) : Setting :=
  .table (entries.map fun e => (e.1.toList, e.2))

/-- The setting of a text. -/
def ofString (text : String) : Setting := .text text.toList

end Setting

end TemplateStyler
