import SageNotation.Source.Position
import SageNotation.Token.Kind

/-!
Tokens, and the readable text that stands for a run of them.

`render` joins the texts of the tokens with single spaces and puts a string
back between double quotes.  Escapes are not restored, so the text of a string
that holds a double quote or a backslash is for reading only.
-/

namespace SageNotation

structure Token where
  kind : Kind
  value : String
  span : Span
  deriving DecidableEq

namespace Token

def isTrivia (token : Token) : Bool :=
  token.kind.isTrivia

/-- Does the token end a line?  The end mark does so too. -/
def endsLine (token : Token) : Bool :=
  token.isTrivia || token.kind == .eof

/-- A token with a meaning of its own: no newline, comment or end mark. -/
def isSignificant (token : Token) : Bool :=
  !token.kind.isTrivia && token.kind != .eof

def text (token : Token) : String :=
  if token.kind = .string then "\"" ++ token.value ++ "\"" else token.value

def render (tokens : List Token) : String :=
  String.intercalate " " (tokens.map text)

@[simp] theorem render_nil : render [] = "" := rfl

theorem render_cons_cons (first second : Token) (others : List Token) :
    render (first :: second :: others) =
      first.text ++ " " ++ render (second :: others) := by
  simp [render, String.intercalate_cons_cons]

end Token

end SageNotation
