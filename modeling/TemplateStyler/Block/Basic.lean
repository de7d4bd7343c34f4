import TemplateStyler.Text.Lines

/-!
# Script blocks

A script block stands between two delimiter lines, which hold four dots or more and nothing else but
white space. Delimiter lines pair up from the top; one that is left over opens nothing.

* `Block.extract` lists the blocks of a document in order.
* `Block.rewrite` puts new contents in place of the old ones and gives all delimiters one length;
  what stands outside the blocks stays as it is.
-/

namespace TemplateStyler

/-- A script block of a document. -/
structure Block where
  /-- The index of the opening delimiter line. -/
  start : Nat
  /-- The index of the closing delimiter line. -/
  stop : Nat
  /-- The lines between the delimiters, each with its ending. -/
  lines : List Text
  deriving DecidableEq, Repr, Inhabited

namespace Block

/-- The index of the first line between the delimiters. -/
def firstLine (b : Block) : Nat := b.start + 1

/-- The text between the delimiters. -/
def text (b : Block) : Text := b.lines.flatten

/-- The fewest dots of a delimiter line. -/
def fewestDots : Nat := 4

/-- The dots of a delimiter line where nothing else is asked for. -/
def usualDots : Nat := 12

/-- Whether a line opens or closes a block. -/
def isDelimiter (line : List Char) : Bool :=
  let dots := Text.trim line
  fewestDots ≤ dots.length && dots.all (· == '.')

/-- The blocks of lines that start at an index. An open block is given by the index of its opening
line and its lines so far. -/
def extractFrom (index : Nat) : Option (Nat × List Text) → List Text → List Block
  | _, [] => []
  | none, l :: ls =>
    extractFrom (index + 1) (if isDelimiter l then some (index, []) else none) ls
  | some (start, content), l :: ls =>
    if isDelimiter l then ⟨start, index, content⟩ :: extractFrom (index + 1) none ls
    else extractFrom (index + 1) (some (start, content ++ [l])) ls

/-- The blocks of a document, in order. -/
def extract (document : Text) : List Block := extractFrom 0 none (Text.lines document)

/-- The text of a block with a new content between delimiters. A newline stands after the opening
delimiter, which the content may bring itself, and before the closing one. -/
def render (delimiter content closingEnd : Text) : Text :=
  delimiter
    ++ (if content.head? = some '\n' then [] else ['\n'])
    ++ content
    ++ (if content.isEmpty || content.getLast? = some '\n' then [] else ['\n'])
    ++ delimiter
    ++ closingEnd

/-- The lines from an index on, with blocks replaced by new contents. -/
def renderFrom (lines : List Text) (delimiter : Text) (index : Nat) : List (Block × Text) → Text
  | [] => (lines.drop index).flatten
  | (b, content) :: rest =>
    ((lines.take b.start).drop index).flatten
      ++ render delimiter content (Text.ending (lines.getD b.stop []))
      ++ renderFrom lines delimiter (b.stop + 1) rest

/-- The document with a new content for each of its blocks, in order, and delimiters of a number of
dots. -/
def rewriteAll (document : Text) (dots : Nat) (contents : List Text) : Text :=
  renderFrom (Text.lines document) (List.replicate (max dots fewestDots) '.') 0
    ((extract document).zip contents)

/-- The document with the content of each block rewritten and delimiters of a number of dots. -/
def rewrite (document : Text) (dots : Nat) (f : Block → Text) : Text :=
  rewriteAll document dots ((extract document).map f)

end Block

end TemplateStyler
