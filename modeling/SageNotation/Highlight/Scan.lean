import SageNotation.Highlight.Category
import SageNotation.Text.Alphanumeric
import SageNotation.Text.Blank
import SageNotation.Text.Lines

/-!
A source cut into pieces for display.

Outside strings a list of rules is tried in order and the first that applies
decides; the last ones leave no character uncovered.  Inside a string there are
escapes, plain stretches and the closing quote.  A backslash with nothing to
escape on its line is an error of one character.  Every piece has at least one
character, and the pieces put together are the source.
-/

namespace SageNotation.Highlight

/-- A category and the number of characters after the first. -/
structure Extent where
  category : Category
  extra : Nat
  deriving DecidableEq

/-- A rule looks at the character before, the character at hand and the text
after it. -/
abbrev Rule := Option Char → Char → List Char → Option Extent

def isWordChar (character : Char) : Bool :=
  Text.isAlphanumeric character || character == '_'

def isAsciiWordChar (character : Char) : Bool :=
  character.isAlphanum || character == '_'

def isSpace (character : Char) : Bool :=
  character == ' ' || character == '\t'

def wordEnds : List Char → Bool
  | [] => true
  | character :: _ => !isWordChar character

def lineEnds : List Char → Bool
  | [] => true
  | character :: _ => character == '\n'

def single (category : Category) : Option Extent :=
  some ⟨category, 0⟩

def oneOf (characters : String) (category : Category) : Rule := fun _ first _ =>
  if characters.toList.contains first then single category else none

/-- One of these words, with no word character after it. -/
def wordOf (words : List String) (category : Category) : Rule := fun _ first rest =>
  words.findSome? fun word =>
    match word.toList with
    | [] => none
    | initial :: others =>
        if initial = first ∧ others.isPrefixOf rest = true ∧
            wordEnds (rest.drop others.length) = true then
          some ⟨category, others.length⟩
        else none

def textOf (texts : List String) (category : Category) : Rule := fun _ first rest =>
  texts.findSome? fun text =>
    match text.toList with
    | [] => none
    | initial :: others =>
        if initial = first ∧ others.isPrefixOf rest = true then some ⟨category, others.length⟩
        else none

def spaces : Rule := fun _ first rest =>
  let isGap := fun character => isSpace character || character == '\r'
  if isGap first then some ⟨.text, (rest.takeWhile isGap).length⟩ else none

def comment : Rule := fun _ first rest =>
  if first = '#' then some ⟨.comment, (rest.takeWhile (· != '\n')).length⟩ else none

/-- Three or more dashes that fill a line, up to spaces after them. -/
def separator : Rule := fun previous first rest =>
  let dashes := rest.takeWhile (· == '-')
  let gap := (rest.dropWhile (· == '-')).takeWhile isSpace
  let after := (rest.dropWhile (· == '-')).dropWhile isSpace
  if (previous = none ∨ previous = some '\n') ∧ first = '-' ∧ 2 ≤ dashes.length ∧
      lineEnds after = true then
    some ⟨.heading, dashes.length + gap.length⟩
  else none

def number : Rule := fun _ first rest =>
  if first.isDigit then
    some ⟨.number, (rest.takeWhile fun character => character.isDigit || character == '.').length⟩
  else none

/-- A plain keyword with no word character on either side. -/
def keyword : Rule := fun previous first rest =>
  if previous.all (!isWordChar ·) then
    wordOf ["let", "if", "else", "ret", "as"] .keyword previous first rest
  else none

def fieldName : Rule := fun _ first rest =>
  let letters := rest.takeWhile isAsciiWordChar
  let after := (rest.dropWhile isAsciiWordChar).dropWhile Text.isBlank
  if (first.isLower || first == '_') && after.head? == some ':' then
    some ⟨.fieldName, letters.length⟩
  else none

def typeName : Rule := fun _ first rest =>
  if first.isUpper then some ⟨.typeName, (rest.takeWhile isAsciiWordChar).length⟩ else none

def name : Rule := fun _ first rest =>
  if first.isAlpha || first == '_' then
    some ⟨.name, (rest.takeWhile isAsciiWordChar).length⟩
  else none

def declarationWords : List String :=
  ["@mod", "@type", "@fn", "@spec", "@op", "@refine", "@impl"]

def clauseWords : List String :=
  ["@req", "@ens", "@invariant", "@property", "@decision", "@preserves", "@state", "@maps",
    "@compare_with"]

def inferredWords : List String :=
  ["@inferred_req", "@inferred_ens", "@inferred_effect"]

def atName : Rule := fun _ first rest =>
  if first = '@' then some ⟨.name, (rest.takeWhile isWordChar).length⟩ else none

def rules : List Rule :=
  [spaces,
    oneOf "\n" .text,
    comment,
    separator,
    textOf ["!!"] .decision,
    oneOf "\"" .string,
    number,
    wordOf declarationWords .declaration,
    wordOf clauseWords .clause,
    wordOf inferredWords .inferred,
    keyword,
    oneOf "∀∃∈⟹∑" .symbol,
    oneOf "✓" .tick,
    oneOf "←" .operator,
    textOf ["->", "=>", "==", "!=", "<=", ">=", "&&", "..."] .operator,
    oneOf "+-*/<>=!?&|'" .operator,
    fieldName,
    typeName,
    name,
    oneOf "()\x7b\x7d[],;:." .punctuation,
    atName]

/-- The piece that starts here outside a string. -/
def outside (previous : Option Char) (first : Char) (rest : List Char) : Extent :=
  (rules.findSome? fun rule => rule previous first rest).getD ⟨.text, 0⟩

def inside (first : Char) (rest : List Char) : Extent :=
  if first = '\\' then
    match rest with
    | [] => ⟨.error, 0⟩
    | escaped :: _ => if escaped = '\n' then ⟨.error, 0⟩ else ⟨.escape, 1⟩
  else if first = '"' then ⟨.string, 0⟩
  else ⟨.string, (rest.takeWhile fun character => character != '"' && character != '\\').length⟩

structure Piece where
  category : Category
  text : List Char
  deriving DecidableEq

def scan (inString : Bool) (previous : Option Char) : List Char → List Piece
  | [] => []
  | first :: rest =>
      let found := if inString then inside first rest else outside previous first rest
      let text := first :: rest.take found.extra
      { category := found.category, text := text } ::
        scan (if first = '"' then !inString else inString) text.getLast? (rest.drop found.extra)
termination_by text => text.length
decreasing_by
  simp only [List.length_drop, List.length_cons]
  omega

def pieces (source : String) : List Piece :=
  scan false none source.toList

def dropMark : List Char → List Char
  | '\uFEFF' :: rest => rest
  | text => text

/-- A source made ready for display: no byte order mark, newlines only, no blank
lines at either end, and one newline at the end. -/
def normalized (source : String) : String :=
  let text := Text.unixBreaks (dropMark source.toList)
  let trimmed := ((text.dropWhile (· == '\n')).reverse.dropWhile (· == '\n')).reverse
  String.ofList (trimmed ++ ['\n'])

def normalizedPieces (source : String) : List Piece :=
  pieces (normalized source)

end SageNotation.Highlight
