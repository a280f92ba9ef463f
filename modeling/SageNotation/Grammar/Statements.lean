import SageNotation.Document.Basic
import SageNotation.Grammar.Reading
import SageNotation.Text.Blank

/-!
Reading statements.

A statement is chosen by its first token.  When the tokens do not have the shape
the first one announces, or no statement starts so, the line is kept as it is; a
`Recovery` records the first case.
-/

namespace SageNotation

/-- A place where the reader fell back. -/
inductive Recovery where
  | construct (kind : Kind) (span : Span)
  | clause (span : Span)
  deriving DecidableEq

namespace Recovery

def message : Recovery → String
  | construct kind span =>
      "unrecognized " ++ kind.name ++ " construct at " ++ span.label ++ "; keeping raw line"
  | clause span => "malformed clause at " ++ span.label

end Recovery

namespace Grammar

open Token

/-- Kinds that end a body. -/
def endsBody (kind : Kind) : Bool :=
  kind.isTopLevel || kind == .dash3 || kind == .eof

def braceBalance (tokens : List Token) : Int :=
  (tokens.countP (·.kind == .lbrace) : Int) - tokens.countP (·.kind == .rbrace)

/-- The tokens after the end of a line, where `continues` accepts the first token
of the next line.  A comment may stand before the newline. -/
def nextLine? (continues : Token → Bool) (tokens : List Token) : Option (Taken (dropOne .comment tokens)) :=
  match expect .newline (dropOne .comment tokens) with
  | none => none
  | some newline =>
      match newline.rest with
      | [] => none
      | token :: _ => if continues token then some newline else none

theorem length_lt_of_nextLine {tokens : List Token} (newline : Taken (dropOne .comment tokens)) :
    newline.rest.length < tokens.length :=
  Nat.lt_of_lt_of_le newline.length_lt (dropOne_suffix _ _).length_le

theorem suffix_of_nextLine {tokens : List Token} (newline : Taken (dropOne .comment tokens)) :
    newline.rest <:+ tokens :=
  newline.suffix.trans (dropOne_suffix _ _)

def followingLines (continues : Token → Bool) (tokens : List Token) :
    Reading (List (List Token)) tokens :=
  match nextLine? continues tokens with
  | none =>
      { value := []
        rest := dropOne .comment tokens
        suffix := dropOne_suffix _ _ }
  | some newline =>
      let others := followingLines continues (afterLine newline.rest)
      { value := line newline.rest :: others.value
        rest := others.rest
        suffix := others.suffix.trans
          ((afterLine_suffix _).trans (suffix_of_nextLine newline)) }
termination_by tokens.length
decreasing_by
  exact Nat.lt_of_le_of_lt (afterLine_suffix _).length_le (length_lt_of_nextLine newline)

/-- The lines that follow while braces are open and the body goes on. -/
def bracedLines (depth : Int) (tokens : List Token) : Reading (List (List Token)) tokens :=
  if 0 < depth then
    match nextLine? (fun token => !endsBody token.kind) tokens with
    | none =>
        { value := []
          rest := dropOne .comment tokens
          suffix := dropOne_suffix _ _ }
    | some newline =>
        let row := line newline.rest
        let others := bracedLines (depth + braceBalance row) (afterLine newline.rest)
        { value := row :: others.value
          rest := others.rest
          suffix := others.suffix.trans
            ((afterLine_suffix _).trans (suffix_of_nextLine newline)) }
  else .nothing []
termination_by tokens.length
decreasing_by
  exact Nat.lt_of_le_of_lt (afterLine_suffix _).length_le (length_lt_of_nextLine newline)

def joinNonempty (separator : String) (texts : List String) : String :=
  String.intercalate separator (texts.filter (!·.isEmpty))

/-- A string is a decision when two exclamation marks follow it, else prose. -/
def proseOrDecision (text : String) (tokens : List Token) : Reading (Span → Statement) tokens :=
  match expect .bang2 tokens with
  | some mark =>
      { value := fun span => .decision { text := text, span := span }
        rest := mark.rest
        suffix := mark.suffix }
  | none =>
      { value := fun span => .prose { text := text, span := span }
        rest := tokens
        suffix := List.suffix_rfl }

def decisionMark (tokens : List Token) : Reading (Span → Decision) tokens :=
  (Reading.stringOrLine tokens).map fun text span => { text := Text.trim text, span := span }

/-- A binding after `let`: a name, an equals sign, and a value that goes on until
its braces balance. -/
def binding (isDecision : Bool) (tokens : List Token) : Option (Reading (Span → Statement) tokens) :=
  match expect .identifier tokens with
  | none => none
  | some name =>
      match expect .assign name.rest with
      | none => none
      | some assign =>
          let row := line assign.rest
          let others := bracedLines (braceBalance row) (afterLine assign.rest)
          let value := Text.trim (joinNonempty "\n" ((row :: others.value).map render))
          some
            { value := fun span =>
                .binding
                  { name := name.token.value
                    value := value
                    isDecision := isDecision
                    span := span }
              rest := others.rest
              suffix := others.suffix.trans
                ((afterLine_suffix _).trans (assign.suffix.trans name.suffix)) }

def endsCondition (token : Token) : Bool :=
  token.endsLine || token.kind == .fatArrow

def consequent (tokens : List Token) : Reading String tokens :=
  match expect .fatArrow tokens with
  | none => .nothing ""
  | some arrow => ((Reading.lineText arrow.rest).map Text.trim).widen arrow.suffix

def alternative (tokens : List Token) : Reading (Option String) tokens :=
  match expect (.plain .elseWord) (skipBlank tokens) with
  | none => .nothing none
  | some word =>
      ((Reading.lineText (dropOne .fatArrow word.rest)).map (some ∘ Text.trim)).widen
        ((dropOne_suffix _ _).trans (word.suffix.trans (skipBlank_suffix tokens)))

def conditional (isDecision : Bool) (tokens : List Token) : Reading (Span → Statement) tokens :=
  let condition := tokens.takeWhile (!endsCondition ·)
  let branch := consequent (tokens.dropWhile (!endsCondition ·))
  let other := alternative branch.rest
  { value := fun span =>
      .conditional
        { condition := render condition
          consequent := branch.value
          alternative := other.value
          isDecision := isDecision
          span := span }
    rest := other.rest
    suffix := other.suffix.trans (branch.suffix.trans (List.dropWhile_suffix _)) }

def returned (tokens : List Token) : Reading (Span → Statement) tokens :=
  (Reading.lineText tokens).map fun text span => .ret { value := Text.trim text, span := span }

/-- Two exclamation marks before a binding or a conditional make it a decision;
before anything else they open one. -/
def marked (tokens : List Token) : Option (Reading (Span → Statement) tokens) :=
  match expect (.plain .letWord) tokens with
  | some word => (binding true word.rest).map (·.widen word.suffix)
  | none =>
      match expect (.plain .ifWord) tokens with
      | some word => some ((conditional true word.rest).widen word.suffix)
      | none => some ((decisionMark tokens).map fun node span => .decision (node span))

def statementForm (first : Token) (tokens : List Token) : Attempt (Span → Statement) tokens :=
  match first.kind with
  | .string => .read (proseOrDecision first.value tokens)
  | .bang2 => .ofOption (marked tokens)
  | .plain .letWord => .ofOption (binding false tokens)
  | .plain .ifWord => .read (conditional false tokens)
  | .plain .ret => .read (returned tokens)
  | _ => .unknown

/-- The rest of a line, kept as it is. -/
def rawLine (first : Token) (tokens : List Token) : Reading (Span → Statement) tokens :=
  { value := fun span => .raw { text := render (first :: line tokens), span := span }
    rest := afterLine tokens
    suffix := afterLine_suffix tokens }

def statement (first : Token) (tokens : List Token) :
    Reading (Statement × List Recovery) tokens :=
  match statementForm first tokens with
  | .read reading => (reading.stamp first).map (·, [])
  | .refused => ((rawLine first tokens).stamp first).map (·, [.construct first.kind first.span])
  | .unknown => ((rawLine first tokens).stamp first).map (·, [])

/-- Statements up to the next construct of the document. -/
def body (tokens : List Token) : Reading (List Statement × List Recovery) tokens :=
  match tokens with
  | [] => .nothing ([], [])
  | first :: rest =>
      if first.isTrivia then (body rest).widen (List.suffix_cons _ _)
      else if endsBody first.kind then
        .nothing ([], [])
      else
        let one := statement first rest
        let others := body one.rest
        { value := (one.value.1 :: others.value.1, one.value.2 ++ others.value.2)
          rest := others.rest
          suffix := suffix_cons_of_suffix first (others.suffix.trans one.suffix) }
termination_by tokens.length
decreasing_by
  all_goals simp only [List.length_cons]
  · omega
  · have within := (statement first rest).length_le
    omega

end Grammar

end SageNotation
