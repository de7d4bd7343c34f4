import TemplateStyler.Text.Basic

/-!
# The registry of names

Templates give some names a meaning: tags with an argument, tags without, builtins of the scripts
and keys of the header. A `Registry` holds these names; only the keywords of the scripts are fixed.

* `Registry.extend` adds names to a registry and takes none away (`isPlainTag_extend` and the like).
* `sortedNames` lists names in the order of their characters, each once.
-/

namespace TemplateStyler

/-- The names that have a meaning in templates. -/
structure Registry where
  /-- Tags written with an argument in braces. -/
  argumentTags : List Text := []
  /-- Tags without an argument; those made of punctuation are listed without their number sign. -/
  plainTags : List Text := []
  /-- Names that every script knows. -/
  builtins : List Text := []
  /-- Keys of the header. -/
  headerKeys : List Text := []
  deriving DecidableEq, Repr, Inhabited

/-- The order of texts by their characters. -/
def textLE : List Char → List Char → Bool
  | [], _ => true
  | _ :: _, [] => false
  | a :: as, b :: bs => a.toNat < b.toNat || (a == b && textLE as bs)

/-- The names of a list in the order of their characters, each once. -/
def sortedNames (names : List Text) : List Text := (names.mergeSort textLE).eraseReps

namespace Registry

/-- The reserved words of the scripts. -/
def reservedWords : List String :=
  ["False", "None", "True", "and", "as", "assert", "async", "await", "break", "class", "continue",
   "def", "del", "elif", "else", "except", "finally", "for", "from", "global", "if", "import", "in",
   "is", "lambda", "nonlocal", "not", "or", "pass", "raise", "return", "try", "while", "with",
   "yield"]

/-- Words that are reserved in some positions only. -/
def softWords : List String := ["let", "match", "case"]

/-- The keywords of the scripts. -/
def keywords : List Text := (reservedWords ++ softWords).map String.toList

/-- Whether a name is a tag with an argument. -/
def isArgumentTag (r : Registry) (name : List Char) : Bool := r.argumentTags.contains name

/-- Whether a name is a tag without an argument. -/
def isPlainTag (r : Registry) (name : List Char) : Bool := r.plainTags.contains name

/-- Whether a word is a keyword, in any registry. -/
def isKeyword (word : List Char) : Bool := keywords.contains word

/-- Whether a word is a builtin. -/
def isBuiltin (r : Registry) (word : List Char) : Bool := r.builtins.contains word

/-- Whether a name is a key of the header. -/
def isHeaderKey (r : Registry) (name : List Char) : Bool := r.headerKeys.contains name

/-- The registry with the names of another one added. -/
def extend (r extra : Registry) : Registry where
  argumentTags := r.argumentTags ++ extra.argumentTags
  plainTags := r.plainTags ++ extra.plainTags
  builtins := r.builtins ++ extra.builtins
  headerKeys := r.headerKeys ++ extra.headerKeys

@[simp] theorem isArgumentTag_extend (r extra : Registry) (name : List Char) :
    (r.extend extra).isArgumentTag name = (r.isArgumentTag name || extra.isArgumentTag name) := by
  simp [isArgumentTag, extend]

@[simp] theorem isPlainTag_extend (r extra : Registry) (name : List Char) :
    (r.extend extra).isPlainTag name = (r.isPlainTag name || extra.isPlainTag name) := by
  simp [isPlainTag, extend]

@[simp] theorem isBuiltin_extend (r extra : Registry) (word : List Char) :
    (r.extend extra).isBuiltin word = (r.isBuiltin word || extra.isBuiltin word) := by
  simp [isBuiltin, extend]

@[simp] theorem isHeaderKey_extend (r extra : Registry) (name : List Char) :
    (r.extend extra).isHeaderKey name = (r.isHeaderKey name || extra.isHeaderKey name) := by
  simp [isHeaderKey, extend]

end Registry

end TemplateStyler
