/-!
# Styles and modes

Every lexeme of a template gets one `Style`. A style belongs to a `Mode`, the part of a template in
which it appears: the markup, a script block, a string of a script, an inline expression, the
header, or the core block that includes other files.

* `Mode.admits` says which styles may appear while a mode is active: its own, and in an inline
  expression those of script blocks too.
* `Style.ofQuote?` and `Style.closingQuote?` are inverse to each other (`closingQuote?_ofQuote?`).
-/

namespace TemplateStyler

/-- The part of a template that is being read. -/
inductive Mode where
  /-- Markup: tags, macros, answers. -/
  | markup
  /-- A script block between dotted delimiter lines or after its tag. -/
  | script
  /-- A string literal of a script. -/
  | string
  /-- An inline expression. -/
  | expression
  /-- The header between lines of equals signs. -/
  | header
  /-- The core block that lists the files to include. -/
  | core
  deriving DecidableEq, Repr, Inhabited

namespace Mode

/-- The modes, in their fixed order. -/
def all : List Mode := [.markup, .script, .string, .expression, .header, .core]

/-- The written name of a mode. -/
def name : Mode → String
  | .markup => "default"
  | .script => "python-block"
  | .string => "python-string"
  | .expression => "expression"
  | .header => "config"
  | .core => "mcq-core"

end Mode

/-- The category by which a lexeme is painted. -/
inductive Style where
  | plain
  | tag
  | variable
  | inlineExpression
  | comment
  | macroName
  | languageComment
  | scriptBody
  | blockDelimiter
  | integer
  | singleQuoteString
  | doubleQuoteString
  | tripleSingleQuoteString
  | tripleDoubleQuoteString
  | unclosedString
  | keyword
  | builtin
  | scriptComment
  | correctAnswer
  | incorrectAnswer
  | neutralizedAnswer
  | conditionalAnswer
  | alternativeVersion
  | headerBody
  | headerDelimiter
  | headerKey
  | headerComment
  | coreBody
  | coreDelimiter
  | inclusion
  | directoryChange
  | disabledInclusion
  deriving DecidableEq, Repr, Inhabited

namespace Style

/-- The styles, in their fixed order. -/
def all : List Style :=
  [.plain, .tag, .variable, .inlineExpression, .comment, .macroName, .languageComment, .scriptBody,
   .blockDelimiter, .integer, .singleQuoteString, .doubleQuoteString, .tripleSingleQuoteString,
   .tripleDoubleQuoteString, .unclosedString, .keyword, .builtin, .scriptComment, .correctAnswer,
   .incorrectAnswer, .neutralizedAnswer, .conditionalAnswer, .alternativeVersion, .headerBody,
   .headerDelimiter, .headerKey, .headerComment, .coreBody, .coreDelimiter, .inclusion,
   .directoryChange, .disabledInclusion]

/-- The place of a style in the fixed order. -/
def index (style : Style) : Nat := all.idxOf style

/-- The mode to which a style belongs. -/
def mode : Style → Mode
  | .plain | .tag | .variable | .comment | .macroName | .languageComment => .markup
  | .correctAnswer | .incorrectAnswer | .neutralizedAnswer | .conditionalAnswer => .markup
  | .alternativeVersion => .markup
  | .inlineExpression => .expression
  | .scriptBody | .blockDelimiter | .integer | .keyword | .builtin | .scriptComment => .script
  | .singleQuoteString | .doubleQuoteString => .string
  | .tripleSingleQuoteString | .tripleDoubleQuoteString | .unclosedString => .string
  | .headerBody | .headerDelimiter | .headerKey | .headerComment => .header
  | .coreBody | .coreDelimiter | .inclusion | .directoryChange | .disabledInclusion => .core

/-- The words of a style's name, in lower case. -/
def words : Style → List String
  | .plain => ["default"]
  | .tag => ["tag"]
  | .variable => ["variable"]
  | .inlineExpression => ["inline", "expression"]
  | .comment => ["comment"]
  | .macroName => ["macro"]
  | .languageComment => ["language", "comment"]
  | .scriptBody => ["python", "body"]
  | .blockDelimiter => ["block", "delimiter"]
  | .integer => ["integer"]
  | .singleQuoteString => ["single", "quote", "string"]
  | .doubleQuoteString => ["double", "quote", "string"]
  | .tripleSingleQuoteString => ["triple", "single", "quote", "string"]
  | .tripleDoubleQuoteString => ["triple", "double", "quote", "string"]
  | .unclosedString => ["unclosed", "string"]
  | .keyword => ["keyword"]
  | .builtin => ["builtin"]
  | .scriptComment => ["python", "comment"]
  | .correctAnswer => ["correct", "answer"]
  | .incorrectAnswer => ["incorrect", "answer"]
  | .neutralizedAnswer => ["neutralized", "answer"]
  | .conditionalAnswer => ["conditional", "answer"]
  | .alternativeVersion => ["alternative", "version"]
  | .headerBody => ["header", "body"]
  | .headerDelimiter => ["header", "delimiter"]
  | .headerKey => ["config", "key"]
  | .headerComment => ["header", "comment"]
  | .coreBody => ["core", "body"]
  | .coreDelimiter => ["core", "delimiter"]
  | .inclusion => ["include"]
  | .directoryChange => ["change", "directory"]
  | .disabledInclusion => ["disabled", "include"]

/-- The name of a style as data: its words joined by underscores. -/
def name (style : Style) : String := "_".intercalate style.words

/-- The name of a style for a reader: its words, each with a capital, run together. -/
def title (style : Style) : String := String.join (style.words.map (·.capitalize))

/-! ### Strings -/

/-- The style of the string that a quote opens. -/
def ofQuote? (quote : List Char) : Option Style :=
  if quote = "'".toList then some .singleQuoteString
  else if quote = "\"".toList then some .doubleQuoteString
  else if quote = "'''".toList then some .tripleSingleQuoteString
  else if quote = "\"\"\"".toList then some .tripleDoubleQuoteString
  else none

/-- The quote that closes a string of a style, which is the one that opened it. -/
def closingQuote? : Style → Option (List Char)
  | .singleQuoteString => some "'".toList
  | .doubleQuoteString => some "\"".toList
  | .tripleSingleQuoteString => some "'''".toList
  | .tripleDoubleQuoteString => some "\"\"\"".toList
  | _ => none

theorem closingQuote?_ofQuote? {quote : List Char} {style : Style}
    (h : ofQuote? quote = some style) : style.closingQuote? = some quote := by
  unfold ofQuote? at h
  split at h <;> try split at h <;> try split at h <;> try split at h
  all_goals simp_all [closingQuote?]
  all_goals subst h; rfl

/-- Strings that end with their line, closed or not. -/
def isSingleLine (style : Style) : Bool :=
  style == .singleQuoteString || style == .doubleQuoteString

/-- The styles of string literals. -/
def isString (style : Style) : Bool := style.closingQuote?.isSome || style == .unclosedString

end Style

/-- Whether a style may appear while a mode is active. -/
def Mode.admits (mode : Mode) (style : Style) : Bool :=
  style.mode == mode || (mode == .expression && style.mode == .script)

end TemplateStyler
