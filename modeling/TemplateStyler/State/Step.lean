import TemplateStyler.Registry.Basic
import TemplateStyler.State.Basic
import TemplateStyler.Text.Word

/-!
# Steps of the state

A lexeme gets its style from its text and the state before it, by the first of these that applies.

1. A language comment lasts until a newline.
2. A string lasts until its quote; a single-line string that meets a newline is unclosed.
3. The core block knows inclusions, changes of directory and its closing line.
4. The header knows comments, keys and its closing line.
5. Dotted lines and tags open and close script blocks; a closing brace ends an inline expression.
6. Scripts and inline expressions know strings, keywords, builtins, numbers and comments.
7. The markup knows tags, variables, comments, macros, answers, versions, and how blocks open.

`Registry.transition` is this rule; `Registry.step` moves the state by it and fails where a style
fits neither the mode before nor the mode after.
-/

namespace TemplateStyler

open Text

/-! ### Shapes of lexemes -/

namespace Shape

/-- A newline, with or without a carriage return. -/
def isNewline (lexeme : List Char) : Bool := lexeme == ['\n'] || lexeme == ['\r', '\n']

/-- At least `n` characters, all equal to a given one. -/
def isRunOf (c : Char) (n : Nat) (lexeme : List Char) : Bool :=
  n ≤ lexeme.length && lexeme.all (· == c)

/-- Digits and points, with one digit or more. -/
def isNumeric (lexeme : List Char) : Bool :=
  let digits := lexeme.filter (· != '.')
  !digits.isEmpty && digits.all Char.isDigit

/-- A backslash and a word of letters, or a backslash before a percent sign or a brace. -/
def isMacro : List Char → Bool
  | '\\' :: name =>
    (!name.isEmpty && name.all Char.isAlpha) || name == ['%'] || name == ['{'] || name == ['}']
  | _ => false

/-- The separator of two versions with its newline, and white space between. -/
def isVersionMarker (lexeme : List Char) : Bool :=
  ['O', 'R'].isPrefixOf lexeme && lexeme.getLast? == some '\n' && (lexeme.drop 2).all isSpace

/-- A number sign after leading white space. -/
def isComment (lexeme : List Char) : Bool := (trimStart lexeme).head? == some '#'

/-- A name that starts with a letter or an underscore, perhaps with an annotation in brackets. -/
def isVariable : List Char → Bool
  | [] => false
  | c :: cs =>
    (c.isAlpha || c == '_') &&
      match cs.dropWhile isWord with
      | [] => true
      | d :: annotation =>
        d == '[' && annotation.getLast? == some ']' && annotation.dropLast.all (· != ']')

/-- The part of a name before its annotation. -/
def baseName (name : List Char) : List Char := name.takeWhile (· != '[')

end Shape

open Shape

/-! ### Modes that decide alone -/

/-- A lexeme in a string. -/
def stringTransition (style : Style) (previous : Mode) (lexeme : List Char) : Transition :=
  if isNewline lexeme && style.isSingleLine then ⟨.unclosedString, previous⟩
  else if style.closingQuote? = some lexeme then ⟨style, previous⟩
  else ⟨style, .string⟩

/-- A lexeme in the core block. -/
def coreTransition (lexeme : List Char) : Transition :=
  if ['!', '-', '-'].isPrefixOf lexeme then ⟨.disabledInclusion, .core⟩
  else if ['-', '-'].isPrefixOf lexeme && lexeme.getLast? == some ':' then ⟨.directoryChange, .core⟩
  else if ['-', '-'].isPrefixOf lexeme && 2 < lexeme.length && (lexeme.drop 2).all isSpace then
    ⟨.inclusion, .core⟩
  else if isRunOf '>' 3 lexeme then ⟨.coreDelimiter, .markup⟩
  else ⟨.coreBody, .core⟩

namespace Registry

variable (r : Registry)

/-- Whether a lexeme is a key of the header with its equals sign. -/
def isKeyLexeme (lexeme : List Char) : Bool :=
  match dropSuffix? ['='] lexeme with
  | some key => r.isHeaderKey (trim key)
  | none => false

/-- A lexeme in the header. -/
def headerTransition (lexeme : List Char) : Transition :=
  if isRunOf '=' 3 lexeme then ⟨.headerDelimiter, .markup⟩
  else if isComment lexeme then ⟨.headerComment, .header⟩
  else if r.isKeyLexeme lexeme then ⟨.headerKey, .header⟩
  else ⟨.headerBody, .header⟩

/-- A lexeme in a script block or an inline expression. -/
def scriptTransition (mode : Mode) (lexeme : List Char) : Transition :=
  match Style.ofQuote? lexeme with
  | some style => ⟨style, .string⟩
  | none =>
    if isKeyword lexeme then ⟨.keyword, mode⟩
    else if r.isBuiltin lexeme then ⟨.builtin, mode⟩
    else if isNumeric lexeme then ⟨.integer, mode⟩
    else if isComment lexeme then ⟨.scriptComment, mode⟩
    else ⟨.scriptBody, mode⟩

/-! ### Markup -/

/-- A lexeme of the markup that starts with a number sign, by what follows the sign. -/
def hashTransition (name : List Char) : Transition :=
  if name.head?.any isBlank then ⟨.languageComment, .markup⟩
  else if name = ['{'] then ⟨.inlineExpression, .expression⟩
  else if (dropSuffix? ['{'] name).any r.isArgumentTag then ⟨.tag, .expression⟩
  else if r.isPlainTag (baseName name) || r.isArgumentTag (baseName name) then ⟨.tag, .markup⟩
  else if isVariable name then ⟨.variable, .markup⟩
  else ⟨.plain, .markup⟩

/-- A lexeme of the markup. -/
def markupTransition (lexeme : List Char) : Transition :=
  match lexeme with
  | '#' :: name => r.hashTransition name
  | _ =>
    if lexeme.head?.any isBlank && isComment lexeme then ⟨.comment, .markup⟩
    else if isMacro lexeme then ⟨.macroName, .markup⟩
    else if lexeme = ['+', ' '] then ⟨.correctAnswer, .markup⟩
    else if lexeme = ['-', ' '] then ⟨.incorrectAnswer, .markup⟩
    else if lexeme = ['!', ' '] then ⟨.neutralizedAnswer, .markup⟩
    else if lexeme = ['?', '{'] then ⟨.conditionalAnswer, .expression⟩
    else if lexeme = ['%'] then ⟨.languageComment, .markup⟩
    else if isVersionMarker lexeme then ⟨.alternativeVersion, .markup⟩
    else if isRunOf '=' 3 lexeme then ⟨.headerDelimiter, .header⟩
    else if isRunOf '<' 3 lexeme then ⟨.coreDelimiter, .core⟩
    else ⟨.plain, .markup⟩

/-- A lexeme of the markup, of a script block or of an inline expression. -/
def openTransition (mode : Mode) (lexeme : List Char) : Transition :=
  if isRunOf '.' 4 lexeme then
    ⟨.blockDelimiter, if mode = .script then .markup else .script⟩
  else if lexeme = "#PYTHON".toList then ⟨.blockDelimiter, .script⟩
  else if mode = .script ∧ (lexeme = "#END_PYTHON".toList ∨ lexeme = "#END".toList) then
    ⟨.blockDelimiter, .markup⟩
  else if mode = .expression ∧ lexeme = ['}'] then ⟨.tag, .markup⟩
  else if mode = .script ∨ mode = .expression then r.scriptTransition mode lexeme
  else r.markupTransition lexeme

/-! ### The step -/

/-- The style of a lexeme and the mode after it. -/
def transition (lexeme : List Char) (s : State) : Transition :=
  if s.style = .languageComment then
    if isNewline lexeme then ⟨.plain, .markup⟩ else ⟨.languageComment, .markup⟩
  else match s.mode with
    | .string => stringTransition s.style s.previous lexeme
    | .core => coreTransition lexeme
    | .header => r.headerTransition lexeme
    | .markup | .script | .expression => r.openTransition s.mode lexeme

/-- The state after a lexeme. The remembered mode moves only when the mode does, so that a string
still knows what to return to. -/
def step (lexeme : List Char) (s : State) : Except Fault State :=
  let next := r.transition lexeme s
  if s.mode.admits next.style || next.mode.admits next.style then
    .ok ⟨next.style, next.mode, if next.mode = s.mode then s.previous else s.mode⟩
  else .error .misplacedStyle

/-- The states after each of several lexemes. -/
def states : State → List Text → Except Fault (List State)
  | _, [] => .ok []
  | s, lexeme :: rest => do
    let next ← r.step lexeme s
    return next :: (← states next rest)

end Registry

end TemplateStyler
