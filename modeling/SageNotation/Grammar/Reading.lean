import SageNotation.Reading
import SageNotation.Token.Basic

/-!
Reading from a list of tokens.

The reader stands at a token of the list, and what is ahead of it is the list from
this token on: the current token first, then the one to peek at.  To advance is to
go on with the tail.  The list goes on behind an end mark, so every routine has to
stop there by itself; the end of the list counts as one.  A routine that opens a
construct takes the first token apart from the others, so that what it leaves is
shorter than what it was offered.  `Token.through` stamps spans: a construct
reaches from its first token to the last significant token that was read for it.
-/

namespace SageNotation

namespace Token

def between (tokens rest : List Token) : List Token :=
  tokens.take (tokens.length - rest.length)

theorem between_append (run rest : List Token) : between (run ++ rest) rest = run := by
  simp [between]

def lastSignificant? (run : List Token) : Option Token :=
  (run.filter isSignificant).getLast?

/-- The span of a construct that starts with `token` and goes on through
`tokens` until only `rest` is left. -/
def through (token : Token) (tokens rest : List Token) : Span :=
  let last := (lastSignificant? (between tokens rest)).getD token
  { file := token.span.file
    start := token.span.start
    stop := last.span.stop.later token.span.stop }

end Token

namespace Reading

variable {α : Type} {tokens : List Token}

def stamp (first : Token) (reading : Reading (Span → α) tokens) : Reading α tokens :=
  reading.map fun node => node (first.through tokens reading.rest)

@[simp] theorem rest_stamp (first : Token) (reading : Reading (Span → α) tokens) :
    (reading.stamp first).rest = reading.rest := rfl

end Reading

/-- The answer of a choice between constructs by their first token: no construct
starts so, or one does and the tokens do not have its shape, or it was read. -/
inductive Attempt (α : Type) (tokens : List Token) where
  | unknown
  | refused
  | read (reading : Reading α tokens)

namespace Attempt

variable {α : Type} {tokens : List Token}

def ofOption : Option (Reading α tokens) → Attempt α tokens
  | none => refused
  | some reading => read reading

def map {β : Type} (change : α → β) : Attempt α tokens → Attempt β tokens
  | unknown => unknown
  | refused => refused
  | read reading => read (reading.map change)

end Attempt

structure Taken (tokens : List Token) where
  token : Token
  rest : List Token
  split : tokens = token :: rest

namespace Taken

variable {tokens : List Token}

theorem suffix (taken : Taken tokens) : taken.rest <:+ tokens :=
  ⟨[taken.token], taken.split.symm⟩

theorem length_lt (taken : Taken tokens) : taken.rest.length < tokens.length := by
  have total := congrArg List.length taken.split
  simp only [List.length_cons] at total
  omega

end Taken

namespace Token

def expect (kind : Kind) : (tokens : List Token) → Option (Taken tokens)
  | [] => none
  | token :: rest => if token.kind = kind then some ⟨token, rest, rfl⟩ else none

theorem expect_of_split {tokens rest : List Token} {token : Token} {kind : Kind}
    (split : tokens = token :: rest) (wanted : token.kind = kind) :
    expect kind tokens = some ⟨token, rest, split⟩ := by
  subst split
  exact if_pos wanted

theorem expect_of_kind {token : Token} {kind : Kind} (wanted : token.kind = kind)
    (rest : List Token) : expect kind (token :: rest) = some ⟨token, rest, rfl⟩ :=
  expect_of_split rfl wanted

theorem kind_of_expect {kind : Kind} {tokens : List Token} {taken : Taken tokens}
    (found : expect kind tokens = some taken) : taken.token.kind = kind := by
  cases tokens with
  | nil => cases found
  | cons token rest =>
      rw [expect] at found
      split at found
      · rename_i wanted
        rw [← Option.some.inj found]
        exact wanted
      · cases found

def isNext (kind : Kind) : List Token → Bool
  | [] => false
  | token :: _ => token.kind == kind

theorem isNext_of_expect {kind : Kind} {tokens : List Token} (missing : expect kind tokens = none) :
    isNext kind tokens = false := by
  cases tokens with
  | nil => rfl
  | cons token rest =>
      rw [expect] at missing
      split at missing
      · cases missing
      · rename_i other
        exact beq_eq_false_iff_ne.mpr other

def dropOne (kind : Kind) : List Token → List Token
  | [] => []
  | token :: rest => if token.kind = kind then rest else token :: rest

theorem dropOne_suffix (kind : Kind) (tokens : List Token) : dropOne kind tokens <:+ tokens := by
  fun_cases dropOne kind tokens with
  | case1 => exact List.suffix_rfl
  | case2 token rest wanted => exact List.suffix_cons token rest
  | case3 token rest other => exact List.suffix_rfl

def skipBlank (tokens : List Token) : List Token :=
  tokens.dropWhile isTrivia

theorem skipBlank_suffix (tokens : List Token) : skipBlank tokens <:+ tokens :=
  List.dropWhile_suffix _

/-- The tokens up to the next newline, comment or end mark. -/
def line (tokens : List Token) : List Token :=
  tokens.takeWhile (!·.endsLine)

def afterLine (tokens : List Token) : List Token :=
  tokens.dropWhile (!·.endsLine)

theorem line_append_afterLine (tokens : List Token) : line tokens ++ afterLine tokens = tokens :=
  List.takeWhile_append_dropWhile

theorem afterLine_suffix (tokens : List Token) : afterLine tokens <:+ tokens :=
  List.dropWhile_suffix _

end Token

namespace Reading

open Token

def lineText (tokens : List Token) : Reading String tokens :=
  { value := render (line tokens)
    rest := afterLine tokens
    suffix := afterLine_suffix tokens }

/-- The content of a string that comes next, or else the text of the line. -/
def stringOrLine : (tokens : List Token) → Reading String tokens
  | [] => lineText []
  | token :: rest =>
      if token.kind = .string then
        { value := token.value, rest := rest, suffix := List.suffix_cons _ _ }
      else lineText (token :: rest)

/-- A string, possibly after blank lines, that is not marked as a decision by two
exclamation marks. -/
def string? : (tokens : List Token) → Option (Reading String tokens)
  | [] => none
  | token :: rest =>
      if token.isTrivia then (string? rest).map (·.widen (List.suffix_cons _ _))
      else if token.kind = .string ∧ isNext .bang2 rest = false then
        some { value := token.value, rest := rest, suffix := List.suffix_cons _ _ }
      else none

/-- The optional description of a declaration; without one nothing is read. -/
def description (tokens : List Token) : Reading (Option String) tokens :=
  match string? tokens with
  | some reading => reading.map some
  | none => .nothing none

end Reading

end SageNotation
