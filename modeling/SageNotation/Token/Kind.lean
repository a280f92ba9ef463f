/-!
Kinds of token, and the spellings that decide them.

Words that start with an at sign are keywords of three sorts: those that open a
declaration, those that open a clause inside one, and the annotations a tool
has inferred.  Five plain words are keywords too.  `Kind.name` is the fixed name
under which a kind is listed.
-/

namespace SageNotation

inductive DeclareWord where
  | mod | type | fn | spec | op | refine | impl
  deriving DecidableEq

inductive ClauseWord where
  | req | ens | invariant | property | decision | preserves | state | maps | compareWith
  deriving DecidableEq

inductive Inference where
  | req | ens | effect
  deriving DecidableEq

inductive PlainWord where
  | letWord | ifWord | elseWord | ret | asWord
  deriving DecidableEq

inductive Kind where
  | declare (word : DeclareWord)
  | clause (word : ClauseWord)
  | inferred (inference : Inference)
  | plain (word : PlainWord)
  | string | number | identifier
  | arrow | fatArrow | bang2 | dash3 | assign | equal | notEqual | less | greater
  | lessEqual | greaterEqual | and | ampersand | pipe | plus | minus | star | slash
  | bang | question | prime | ellipsis
  | lparen | rparen | lbrace | rbrace | lbracket | rbracket
  | colon | semicolon | comma | dot
  | forAll | thereIs | elementOf | implies | summation | checkmark | leftArrow
  | comment | newline | eof
  deriving DecidableEq

namespace Inference

def name : Inference → String
  | req => "req"
  | ens => "ens"
  | effect => "effect"

end Inference

namespace Kind

def name : Kind → String
  | declare .mod => "MOD"
  | declare .type => "TYPE"
  | declare .fn => "FN"
  | declare .spec => "SPEC"
  | declare .op => "OP"
  | declare .refine => "REFINE"
  | declare .impl => "IMPL"
  | clause .req => "REQ"
  | clause .ens => "ENS"
  | clause .invariant => "INVARIANT"
  | clause .property => "PROPERTY"
  | clause .decision => "DECISION"
  | clause .preserves => "PRESERVES"
  | clause .state => "STATE"
  | clause .maps => "MAPS"
  | clause .compareWith => "COMPARE_WITH"
  | inferred .req => "INFERRED_REQ"
  | inferred .ens => "INFERRED_ENS"
  | inferred .effect => "INFERRED_EFFECT"
  | plain .letWord => "LET"
  | plain .ifWord => "IF"
  | plain .elseWord => "ELSE"
  | plain .ret => "RET"
  | plain .asWord => "AS"
  | string => "STRING"
  | number => "NUMBER"
  | identifier => "IDENTIFIER"
  | arrow => "ARROW"
  | fatArrow => "FAT_ARROW"
  | bang2 => "BANG2"
  | dash3 => "DASH3"
  | assign => "ASSIGN"
  | equal => "EQUAL"
  | notEqual => "NOT_EQUAL"
  | less => "LESS"
  | greater => "GREATER"
  | lessEqual => "LESS_EQUAL"
  | greaterEqual => "GREATER_EQUAL"
  | and => "AND"
  | ampersand => "AMPERSAND"
  | pipe => "PIPE"
  | plus => "PLUS"
  | minus => "MINUS"
  | star => "STAR"
  | slash => "SLASH"
  | bang => "BANG"
  | question => "QUESTION"
  | prime => "PRIME"
  | ellipsis => "ELLIPSIS"
  | lparen => "LPAREN"
  | rparen => "RPAREN"
  | lbrace => "LBRACE"
  | rbrace => "RBRACE"
  | lbracket => "LBRACKET"
  | rbracket => "RBRACKET"
  | colon => "COLON"
  | semicolon => "SEMICOLON"
  | comma => "COMMA"
  | dot => "DOT"
  | forAll => "FOR_ALL"
  | thereIs => "EXISTS"
  | elementOf => "ELEMENT_OF"
  | implies => "IMPLIES"
  | summation => "SUMMATION"
  | checkmark => "CHECKMARK"
  | leftArrow => "LEFT_ARROW"
  | comment => "COMMENT"
  | newline => "NEWLINE"
  | eof => "EOF"

def all : List Kind :=
  [declare .mod, declare .type, declare .fn, declare .spec, declare .op, declare .refine,
    declare .impl, clause .req, clause .ens, clause .invariant, clause .property,
    clause .decision, clause .preserves, clause .state, clause .maps, clause .compareWith,
    inferred .req, inferred .ens, inferred .effect, plain .letWord, plain .ifWord,
    plain .elseWord, plain .ret, plain .asWord, string, number, identifier, arrow, fatArrow,
    bang2, dash3, assign, equal, notEqual, less, greater, lessEqual, greaterEqual, and,
    ampersand, pipe, plus, minus, star, slash, bang, question, prime, ellipsis, lparen, rparen,
    lbrace, rbrace, lbracket, rbracket, colon, semicolon, comma, dot, forAll, thereIs,
    elementOf, implies, summation, checkmark, leftArrow, comment, newline, eof]

def ofName? (name : String) : Option Kind :=
  all.find? fun kind => kind.name == name

/-- At-keywords with their spelling. -/
def atWords : List (String × Kind) :=
  [("@mod", declare .mod), ("@type", declare .type), ("@fn", declare .fn),
    ("@spec", declare .spec), ("@op", declare .op), ("@refine", declare .refine),
    ("@impl", declare .impl), ("@req", clause .req), ("@ens", clause .ens),
    ("@invariant", clause .invariant), ("@property", clause .property),
    ("@decision", clause .decision), ("@preserves", clause .preserves),
    ("@state", clause .state), ("@maps", clause .maps),
    ("@compare_with", clause .compareWith), ("@inferred_req", inferred .req),
    ("@inferred_ens", inferred .ens), ("@inferred_effect", inferred .effect)]

def plainWords : List (String × Kind) :=
  [("let", plain .letWord), ("if", plain .ifWord), ("else", plain .elseWord),
    ("ret", plain .ret), ("as", plain .asWord)]

/-- A word with an at sign that is no keyword is an identifier. -/
def ofAtWord (word : String) : Kind :=
  (atWords.lookup word).getD identifier

def ofPlainWord (word : String) : Kind :=
  (plainWords.lookup word).getD identifier

def ofPair? : Char → Char → Option Kind
  | '!', '!' => some bang2
  | '!', '=' => some notEqual
  | '-', '>' => some arrow
  | '=', '>' => some fatArrow
  | '=', '=' => some equal
  | '>', '=' => some greaterEqual
  | '<', '=' => some lessEqual
  | '&', '&' => some and
  | _, _ => none

def ofSymbol? : Char → Option Kind
  | '∀' => some forAll
  | '∃' => some thereIs
  | '∈' => some elementOf
  | '⟹' => some implies
  | '∑' => some summation
  | '✓' => some checkmark
  | '←' => some leftArrow
  | _ => none

def ofChar? : Char → Option Kind
  | '(' => some lparen
  | ')' => some rparen
  | '{' => some lbrace
  | '}' => some rbrace
  | '[' => some lbracket
  | ']' => some rbracket
  | '<' => some less
  | '>' => some greater
  | ':' => some colon
  | ';' => some semicolon
  | ',' => some comma
  | '.' => some dot
  | '?' => some question
  | '|' => some pipe
  | '&' => some ampersand
  | '+' => some plus
  | '-' => some minus
  | '*' => some star
  | '/' => some slash
  | '!' => some bang
  | '=' => some assign
  | _ => none

/-- Newlines and comments, which carry no meaning of their own. -/
def isTrivia : Kind → Bool
  | newline | comment => true
  | _ => false

def isAtWord : Kind → Bool
  | declare _ | clause _ | inferred _ => true
  | _ => false

/-- Kinds that open a construct of the document and so close a body before it. -/
def isTopLevel : Kind → Bool
  | declare _ | inferred _ => true
  | _ => false

end Kind

end SageNotation
