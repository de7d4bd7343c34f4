import TemplateStyler.Registry.Basic

/-!
# The stock registry

The names that templates use without any configuration. A configuration adds to them.

* `Registry.stock` is the registry itself.
-/

namespace TemplateStyler.Registry

/-- Tags whose argument is a script expression. -/
def stockArgumentTags : List String :=
  ["ASSERT", "CALL", "CASE", "COMMENT_IF", "DEBUG", "ELIF", "EVAL", "GEN", "IF", "IMPORT", "LOAD",
   "MACRO", "NUM", "PICK_IF", "SEED", "SHUFFLE_IF", "SIGN", "TEST", "VERSION"]

/-- Tags without an argument. -/
def stockPlainTags : List String :=
  ["ANS", "ANSWER", "ANSWERS_BLOCK", "COMMENT", "CONDITIONAL_ANSWER", "ELSE", "END",
   "END_ANSWERS_BLOCK", "END_COMMENT", "END_IF", "END_PICK", "END_PYTHON", "END_QUESTIONS",
   "END_SHUFFLE", "END_TEST", "GCALC", "ITEM", "L_ANSWERS", "NEW_QUESTION", "PICK", "PYTHON",
   "QUESTION", "QUESTIONS", "RAND", "ROUND", "SHUFFLE", "SP", "+", "-", "*", "=", "?", "#"]

/-- Names that the script language defines. -/
def languageBuiltins : List String :=
  ["abs", "all", "any", "ascii", "bin", "bool", "breakpoint", "bytearray", "bytes", "callable",
   "chr", "classmethod", "compile", "complex", "delattr", "dict", "dir", "divmod", "enumerate",
   "eval", "exec", "filter", "float", "format", "frozenset", "getattr", "globals", "hasattr",
   "hash", "help", "hex", "id", "input", "int", "isinstance", "issubclass", "iter", "len", "list",
   "locals", "map", "max", "memoryview", "min", "next", "object", "oct", "open", "ord", "pow",
   "print", "property", "range", "repr", "reversed", "round", "set", "setattr", "slice", "sorted",
   "staticmethod", "str", "sum", "super", "tuple", "type", "vars", "zip", "Exception",
   "ValueError", "TypeError", "ZeroDivisionError"]

/-- Names that the template engine adds to every script. -/
def templateBuiltins : List String :=
  ["randint", "srandint", "randsignint", "randfrac", "srandfrac", "randchoice", "srandchoice",
   "randpoint", "randmain", "many", "distinct", "shuffle", "sign", "round", "latex", "sympy",
   "sympy_latex", "write", "print", "S", "PTYX_NUM", "PTYX_WITH_ANSWERS", "PTYX_VERSION",
   "PTYX_SEED", "ANSWER", "APPLY_TO_ANSWERS"]

/-- Keys of the header. -/
def stockHeaderKeys : List String :=
  ["ceil", "correct", "default_score", "floor", "id", "ids", "incorrect", "lang", "max_score",
   "mode", "names", "packages", "questions", "seed", "shuffle", "skipped", "students", "sty",
   "subject", "title", "version", "versions"]

/-- The registry of templates that configure nothing. -/
def stock : Registry where
  argumentTags := stockArgumentTags.map String.toList
  plainTags := stockPlainTags.map String.toList
  builtins := (languageBuiltins ++ templateBuiltins).map String.toList
  headerKeys := stockHeaderKeys.map String.toList

end TemplateStyler.Registry
