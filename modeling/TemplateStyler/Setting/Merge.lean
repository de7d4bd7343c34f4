import TemplateStyler.Setting.Basic

/-!
# Merging settings

A later layer of settings goes over an earlier one: tables merge entry by entry, and any other
setting takes the place of what stood there. Names that differ in case only are one name.

* `Setting.overlay` is the merge, and `Setting.assignAll` the merge of entries into a table.
-/

namespace TemplateStyler.Setting

/-- A name in lower case. Of the characters that are not letters of ASCII only the sign for kelvin
has such a letter as its lower case, and only these occur in names that mean something. -/
def lowerCase (name : Text) : Text :=
  name.map fun c => if c = '\u212A' then 'k' else c.toLower

mutual

/-- A setting over an earlier one. A table without entries leaves the earlier one as it is. -/
def overlay (earlier : Setting) : Setting → Setting
  | .table es => assignAll earlier es
  | v => v

/-- Entries over the entries of an earlier setting, which becomes a table if there is any. -/
def assignAll (earlier : Setting) : List (Text × Setting) → Setting
  | [] => earlier
  | (name, v) :: es =>
    let old := (lookup (lowerCase name) earlier.entries).getD (.table [])
    assignAll (.table (assign (lowerCase name) (overlay old v) earlier.entries)) es

end

end TemplateStyler.Setting
