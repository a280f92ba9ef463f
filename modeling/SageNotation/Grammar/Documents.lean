import SageNotation.Grammar.Refinements
import SageNotation.Token.Scan

/-!
Reading documents.

Every item is chosen by its first token; a line that fits no construct is kept
as it is, so reading never fails.  It goes on until the reader stands at an end
mark, and a list that does not end with one gets one.
-/

namespace SageNotation

namespace Grammar

open Token

def leftArrow : Char := '←'

def dropOpeningQuote : List Char → List Char
  | '"' :: rest => rest
  | text => text

/-- The text without blanks and without a double quote at either end. -/
def unquoted (text : List Char) : List Char :=
  let opened := dropOpeningQuote (Text.trimChars text)
  Text.trimChars (dropOpeningQuote opened.reverse).reverse

/-- The text before the first left arrow, and after it where there is one. -/
def splitAtArrow (text : List Char) : List Char × Option (List Char) :=
  match text.dropWhile (· != leftArrow) with
  | [] => (text, none)
  | _ :: reason => (text.takeWhile (· != leftArrow), some reason)

/-- The reason of an inferred fact; one without text counts as none. -/
def reasonOf (text : Option (List Char)) : Option String :=
  match text.map unquoted with
  | none => none
  | some [] => none
  | some reason => some (String.ofList reason)

def inferredFact (inference : Inference) (tokens : List Token) : Reading (Span → InferredFact) tokens :=
  (Reading.lineText tokens).map fun text span =>
    let parts := splitAtArrow text.toList
    { inference := inference
      condition := String.ofList (unquoted parts.1)
      reason := reasonOf parts.2
      span := span }

def plainly {tokens : List Token} {α : Type} (reading : Reading α tokens) :
    Reading (α × List Recovery) tokens :=
  reading.map (·, [])

def asDeclaration {tokens : List Token}
    (reading : Option (Reading ((Span → Declaration) × List Recovery) tokens)) :
    Attempt ((Span → Item) × List Recovery) tokens :=
  (Attempt.ofOption reading).map fun result => (fun span => .declaration (result.1 span), result.2)

def declarationForm (word : DeclareWord) (tokens : List Token) :
    Attempt ((Span → Item) × List Recovery) tokens :=
  match word with
  | .mod => asDeclaration ((moduleDecl tokens).map plainly)
  | .type => asDeclaration ((typeDecl tokens).map plainly)
  | .fn =>
      asDeclaration ((callable tokens).map (·.map fun result =>
        (fun span => .function (result.1 span), result.2)))
  | .spec => asDeclaration (specDecl tokens)
  | .op =>
      asDeclaration ((callable tokens).map (·.map fun result =>
        (fun span => .operation (result.1 span), result.2)))
  | .refine => asDeclaration (refinement tokens)
  | .impl => asDeclaration (some (plainly (implementation tokens)))

def itemForm (first : Token) (tokens : List Token) :
    Attempt ((Span → Item) × List Recovery) tokens :=
  match first.kind with
  | .declare word => declarationForm word tokens
  | .inferred inference =>
      .read (plainly ((inferredFact inference tokens).map fun node span => .inferred (node span)))
  | .dash3 =>
      .read (.nothing (.separator, []))
  | _ =>
      (statementForm first tokens).map fun node => (fun span => .statement (node span), [])

/-- One item; `first` is its first token. -/
def item (first : Token) (tokens : List Token) : Reading (Item × List Recovery) tokens :=
  match itemForm first tokens with
  | .read reading =>
      reading.map fun result => (result.1 (first.through tokens reading.rest), result.2)
  | .refused =>
      ((rawLine first tokens).stamp first).map fun node =>
        (.statement node, [.construct first.kind first.span])
  | .unknown =>
      ((rawLine first tokens).stamp first).map fun node => (.statement node, [])

/-- Items up to the first end mark that the reader comes to stand at. -/
def items (tokens : List Token) : Reading (List Item × List Recovery) tokens :=
  match tokens with
  | [] => .nothing ([], [])
  | first :: rest =>
      if first.isTrivia then (items rest).widen (List.suffix_cons _ _)
      else if first.kind = .eof then .nothing ([], [])
      else
        let one := item first rest
        let others := items one.rest
        { value := (one.value.1 :: others.value.1, one.value.2 ++ others.value.2)
          rest := others.rest
          suffix := suffix_cons_of_suffix first (others.suffix.trans one.suffix) }
termination_by tokens.length
decreasing_by
  all_goals simp only [List.length_cons]
  · omega
  · have within := (item first rest).length_le
    omega

/-- A document is named as asked; without a name it takes that of its tokens. -/
def nameOf (file : Option String) (tokens : List Token) : String :=
  match file with
  | none | some "" => (tokens.getLast?.map (·.span.file)).getD "<input>"
  | some name => name

/-- The tokens with an end mark behind the last one, if that is no mark already. -/
def closed (file : Option String) (tokens : List Token) : List Token :=
  match tokens.getLast? with
  | none => [Token.endMark (nameOf file tokens) .first]
  | some last =>
      if last.kind = .eof then tokens
      else tokens ++ [Token.endMark last.span.file last.span.stop]

def stopAt (ahead : List Token) : Position :=
  (ahead.head?.map (·.span.stop)).getD .first

end Grammar

namespace Document

open Grammar

def ofTokens (tokens : List Token) (file : Option String) : Document :=
  let marked := closed file tokens
  { body := (items marked).value.1
    span := ⟨nameOf file marked, .first, stopAt (items marked).rest⟩ }

def recoveries (tokens : List Token) : List Recovery :=
  (items (closed none tokens)).value.2

def parse (source file : String) : Document :=
  ofTokens (Token.tokenize source file) (some file)

end Document

end SageNotation
