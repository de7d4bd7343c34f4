import TemplateStyler.Setting.Basic

/-!
# Tables in the making

The statements of a TOML text build up tables, and what a later statement may add to a table depends
on how the table came about.

* `Draft.openTable` and `Draft.openElement` make the table of a header.
* `Draft.put` adds a value under a name with points.
* `Draft.settings` are the settings of finished tables.
-/

namespace TemplateStyler.Toml

/-- How a table came about. -/
inductive Origin where
  /-- By a header of its own. -/
  | header
  /-- On the way to the table of a longer header. -/
  | passed
  /-- By a name with points. -/
  | pointed
  deriving DecidableEq, Repr, Inhabited

/-- A part of the tables in the making. -/
inductive Draft where
  | value (v : Setting)
  | table (origin : Origin) (entries : List (Text × Draft))
  /-- A list of tables, of which the last one can still grow. -/
  | tables (earlier : List Setting) (last : List (Text × Draft))
  deriving Repr, Inhabited

namespace Draft

/-- The entries of a table. -/
abbrev Entries := List (Text × Draft)

/-- A change of what stands under a name, which may fail. -/
def alter (key : Text) (change : Option Draft → Option Draft) (es : Entries) : Option Entries :=
  (change (Setting.lookup key es)).map fun d => Setting.assign key d es

mutual

/-- The setting of a finished part. -/
def setting : Draft → Setting
  | .value v => v
  | .table _ es => .table (settings es)
  | .tables earlier last => .list (earlier ++ [.table (settings last)])

/-- The settings of finished entries. -/
def settings : Entries → List (Text × Setting)
  | [] => []
  | (key, d) :: es => (key, d.setting) :: settings es

end

/-- A change of the table under the parts of a header. Tables on the way are made where there are
none, and of a list of tables the last one is meant. -/
def within (change : Entries → Option Entries) : List Text → Entries → Option Entries
  | [], es => change es
  | key :: path, es => alter key (fun
    | none => (within change path []).map (.table .passed)
    | some (.value _) => none
    | some (.table origin es) => (within change path es).map (.table origin)
    | some (.tables earlier last) => (within change path last).map (.tables earlier)) es

/-- A value under a name with points, where nothing stands there. The tables on the way must not
have headers of their own, and the last one must have come about by a name with points. -/
def put (v : Setting) : List Text → Entries → Option Entries
  | [], _ => none
  | [key], es => alter key (fun d => if d.isNone then some (.value v) else none) es
  | key :: path, es => alter key (fun
    | none => (put v path []).map (.table .pointed)
    | some (.value _) => none
    | some (.table origin es) =>
      if origin = .pointed ∨ (origin = .passed ∧ path.length ≠ 1) then
        (put v path es).map (.table origin)
      else none
    | some (.tables earlier last) =>
      if path.length ≠ 1 then (put v path last).map (.tables earlier) else none) es

/-- The table of a header. It may be there already on the way to another one. -/
def openTable (path : List Text) (es : Entries) : Option Entries :=
  match path.getLast? with
  | none => none
  | some key => within (alter key fun
    | none => some (.table .header [])
    | some (.table .passed es) => some (.table .header es)
    | _ => none) path.dropLast es

/-- One more table of the list of tables of a header. -/
def openElement (path : List Text) (es : Entries) : Option Entries :=
  match path.getLast? with
  | none => none
  | some key => within (alter key fun
    | none => some (.tables [] [])
    | some (.tables earlier last) => some (.tables (earlier ++ [.table (settings last)]) [])
    | _ => none) path.dropLast es

end Draft

end TemplateStyler.Toml
