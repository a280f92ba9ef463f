import SageNotation.Text.Blank
import SageNotation.Token.Basic

/-!
The tokens of a text.

`lexeme` looks at the text from one character on and says which kind of token
starts there, if any, and how many further characters belong to it.  `scan`
cuts the text accordingly, so every character is read exactly once: it belongs
to one token or is passed over.  Scanning has no errors.  A character that
starts no token is passed over, an unclosed string runs to the end of the text,
and the end mark always comes last.
-/

namespace SageNotation.Token

def isDigit (character : Char) : Bool :=
  '0' ≤ character && character ≤ '9'

def isWordStart (character : Char) : Bool :=
  character.isAlpha || character == '_'

def isWordChar (character : Char) : Bool :=
  character.isAlphanum || character == '_'

def isNumberChar (character : Char) : Bool :=
  isDigit character || character == '.'

/-- The number of characters up to and including the closing quote, or to the
end of the text.  A backslash takes the next character with it. -/
def stringExtent : List Char → Nat
  | [] => 0
  | '"' :: _ => 1
  | '\\' :: _ :: rest => stringExtent rest + 2
  | _ :: rest => stringExtent rest + 1

/-- The content of a string, read after its opening quote: an escaped character
stands for itself, and a backslash with nothing after it is dropped. -/
def stringContent : List Char → List Char
  | [] => []
  | '"' :: _ => []
  | ['\\'] => []
  | '\\' :: character :: rest => character :: stringContent rest
  | character :: rest => character :: stringContent rest

/-- A token found in a text, by its kind and the number of characters after the
first; without a kind the characters are passed over. -/
structure Lexeme where
  kind : Option Kind
  extra : Nat
  deriving DecidableEq

namespace Lexeme

def skipped : Lexeme :=
  { kind := none, extra := 0 }

def single (kind : Kind) : Lexeme :=
  { kind := some kind, extra := 0 }

end Lexeme

def dashes? (first : Char) (rest : List Char) : Option Lexeme :=
  match first, rest with
  | '-', '-' :: '-' :: _ => some ⟨some .dash3, (rest.takeWhile (· == '-')).length⟩
  | _, _ => none

def pair? (first : Char) (rest : List Char) : Option Lexeme :=
  match rest with
  | second :: _ => (Kind.ofPair? first second).map fun kind => ⟨some kind, 1⟩
  | [] => none

def ellipsis? (first : Char) (rest : List Char) : Option Lexeme :=
  match first, rest with
  | '.', '.' :: '.' :: _ => some ⟨some .ellipsis, 2⟩
  | _, _ => none

/-- A symbol, operator or punctuation mark, the longest that fits. -/
def mark? (first : Char) (rest : List Char) : Option Lexeme :=
  (pair? first rest).orElse fun _ =>
    (ellipsis? first rest).orElse fun _ =>
      ((Kind.ofSymbol? first).orElse fun _ => Kind.ofChar? first).map Lexeme.single

def word? (first : Char) (rest : List Char) : Option Lexeme :=
  let letters := rest.takeWhile isWordChar
  if first = '@' then
    some ⟨some (Kind.ofAtWord (String.ofList (first :: letters))), letters.length⟩
  else if isDigit first then
    some ⟨some .number, (rest.takeWhile isNumberChar).length⟩
  else if isWordStart first then
    some ⟨some (Kind.ofPlainWord (String.ofList (first :: letters))), letters.length⟩
  else none

def lexeme (first : Char) (rest : List Char) : Lexeme :=
  if first = '\n' then .single .newline
  else if first = '#' then ⟨some .comment, (rest.takeWhile (· != '\n')).length⟩
  else if first = '"' then ⟨some .string, stringExtent rest⟩
  else if first = '\x27' then .single .prime
  else
    ((dashes? first rest).orElse fun _ =>
      (mark? first rest).orElse fun _ => word? first rest).getD .skipped

def valueOf (kind : Kind) (first : Char) (others : List Char) : String :=
  match kind with
  | .comment => String.ofList (Text.trimChars others)
  | .string => String.ofList (stringContent others)
  | _ => String.ofList (first :: others)

/-- A newline ends one column further on its own line, any other token where the
next character stands. -/
def stopOf (kind : Kind) (start : Position) (text : List Char) : Position :=
  if kind = .newline then start.beside else start.after text

def endMark (file : String) (position : Position) : Token :=
  { kind := .eof, value := "", span := ⟨file, position, position⟩ }

def scan (file : String) (position : Position) : List Char → List Token
  | [] => [endMark file position]
  | first :: rest =>
      let found := lexeme first rest
      let others := rest.take found.extra
      let following := position.after (first :: others)
      match found.kind with
      | none => scan file following (rest.drop found.extra)
      | some kind =>
          { kind := kind
            value := valueOf kind first others
            span := ⟨file, position, stopOf kind position (first :: others)⟩ } ::
          scan file following (rest.drop found.extra)
termination_by text => text.length
decreasing_by
  all_goals
    simp only [List.length_drop, List.length_cons]
    omega

def tokenize (source file : String) : List Token :=
  scan file .first source.toList

end SageNotation.Token
