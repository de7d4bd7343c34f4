import TemplateStyler.Text.Basic

/-!
# Directories

A directory is a list of names of files, each with the text of the file.

* `Directory.find?` reads a file and `Directory.write` writes one that is there. A path may lead
  through the directory itself.
-/

namespace TemplateStyler

/-- The files of a directory with their texts. -/
abbrev Directory := List (Text × Text)

namespace Directory

/-- The name that a path ends in, where it leads through the directory itself. -/
def nameOf : Text → Text
  | '.' :: '/' :: path => nameOf path
  | path => path

/-- The text of the file at a path. -/
def find? (d : Directory) (path : Text) : Option Text :=
  (List.find? (fun f : Text × Text => f.1 = nameOf path) d).map Prod.snd

/-- The directory with another text in the file at a path. -/
def write (d : Directory) (path text : Text) : Directory :=
  d.map fun f => if f.1 = nameOf path then (f.1, text) else f

end Directory

end TemplateStyler
