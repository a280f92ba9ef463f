import SageNotation.Config.Value
import SageNotation.Reading

/-!
Keys, strings, numbers and the blanks between them in a settings file.
-/

namespace SageNotation.Config

def fault {α : Type} (problem : Problem) (text : List Char) : Except Fault α :=
  .error { problem := problem, remaining := text.length }

def isSpace (character : Char) : Bool :=
  character == ' ' || character == '\t'

def isSpaceOrNewline (character : Char) : Bool :=
  isSpace character || character == '\n'

def isControl (character : Char) : Bool :=
  (character.toNat < 32 && character != '\t') || character.toNat == 127

def isMultilineControl (character : Char) : Bool :=
  isControl character && character != '\n'

def isBareKeyChar (character : Char) : Bool :=
  character.isAlphanum || character == '-' || character == '_'

def skipSpaces (text : List Char) : List Char :=
  text.dropWhile isSpace

theorem skipSpaces_suffix (text : List Char) : skipSpaces text <:+ text :=
  List.dropWhile_suffix _

/-- A comment up to the end of its line, if one starts here. -/
def comment (text : List Char) : Except Fault (Reading Unit text) :=
  match text with
  | '#' :: rest =>
      match rest.dropWhile fun character => character != '\n' && !isControl character with
      | character :: others =>
          if character = '\n' then
            .ok
              { value := ()
                rest := rest.dropWhile (· != '\n')
                suffix := suffix_cons_of_suffix _ (List.dropWhile_suffix _) }
          else fault (.invalidCharacter character) (character :: others)
      | [] => .ok { value := (), rest := [], suffix := List.nil_suffix }
  | _ => .ok (.nothing ())

def arrayGap (text : List Char) : Except Fault (Reading Unit text) :=
  match comment (text.dropWhile isSpaceOrNewline) with
  | .error problem => .error problem
  | .ok passed =>
      if passed.rest.length < text.length then
        match arrayGap passed.rest with
        | .error problem => .error problem
        | .ok further =>
            .ok (further.widen (passed.suffix.trans (List.dropWhile_suffix _)))
      else .ok (passed.widen (List.dropWhile_suffix _))
termination_by text.length

def splitAtMark (mark : List Char) : (text : List Char) → Option (Reading (List Char) text)
  | [] => if mark = [] then some (.nothing []) else none
  | first :: rest =>
      if mark.isPrefixOf (first :: rest) then
        some
          { value := []
            rest := (first :: rest).drop mark.length
            suffix := List.drop_suffix _ _ }
      else
        (splitAtMark mark rest).map fun reading =>
          (reading.map (first :: ·)).widen (List.suffix_cons _ _)

def literalUntil (mark : String) (isIllegal : Char → Bool) (text : List Char) :
    Except Fault (Reading String text) :=
  match splitAtMark mark.toList text with
  | none => .error { problem := .expected mark, remaining := 0 }
  | some found =>
      match found.value.dropWhile (!isIllegal ·) with
      | [] => .ok (found.map String.ofList)
      | character :: others =>
          .error
            { problem := .invalidCharacter character
              remaining := (character :: others).length + mark.toList.length + found.rest.length }

def isHexDigit (character : Char) : Bool :=
  character.isDigit || ('a' ≤ character && character ≤ 'f') || ('A' ≤ character && character ≤ 'F')

def digitValue (character : Char) : Nat :=
  if character.isDigit then character.toNat - 48
  else if 'a' ≤ character then character.toNat - 87
  else character.toNat - 55

def numberInBase (base : Nat) (digits : List Char) : Nat :=
  digits.foldl (fun total digit => base * total + digitValue digit) 0

/-- A character by its code in so many hexadecimal digits. -/
def hexChar (width : Nat) (text : List Char) : Except Fault (Reading (List Char) text) :=
  let digits := text.take width
  if digits.length = width ∧ digits.all isHexDigit = true then
    let code := numberInBase 16 digits
    if Nat.isValidChar code then
      .ok
        { value := [Char.ofNat code]
          rest := text.drop width
          suffix := List.drop_suffix _ _ }
    else fault .notACharacter (text.drop width)
  else fault .invalidHex text

def simpleEscape? : Char → Option Char
  | 'b' => some (Char.ofNat 8)
  | 't' => some '\t'
  | 'n' => some '\n'
  | 'f' => some (Char.ofNat 12)
  | 'r' => some '\r'
  | '"' => some '"'
  | '\\' => some '\\'
  | _ => none

/-- What stands after a backslash at a line end is dropped, blanks included. -/
def lineContinuation (first : Char) (rest : List Char) :
    Except Fault (Reading (List Char) rest) :=
  let skipped := fun (text : List Char) (inside : text <:+ rest) =>
    ({ value := []
       rest := text.dropWhile isSpaceOrNewline
       suffix := (List.dropWhile_suffix _).trans inside } : Reading (List Char) rest)
  if first = '\n' then .ok (skipped rest List.suffix_rfl)
  else
    match remaining : skipSpaces rest with
    | [] => .ok (skipped [] List.nil_suffix)
    | character :: others =>
        if character = '\n' then
          .ok (skipped others
            ((List.suffix_cons character others).trans (remaining ▸ skipSpaces_suffix rest)))
        else fault .unescapedBackslash (character :: others)

def escape (multiline : Bool) (text : List Char) : Except Fault (Reading (List Char) text) :=
  match text with
  | [] => fault .unescapedBackslash []
  | first :: rest =>
      if multiline && isSpaceOrNewline first then
        (lineContinuation first rest).map (·.widen (List.suffix_cons _ _))
      else if first = 'u' then (hexChar 4 rest).map (·.widen (List.suffix_cons _ _))
      else if first = 'U' then (hexChar 8 rest).map (·.widen (List.suffix_cons _ _))
      else
        match simpleEscape? first with
        | some character =>
            .ok { value := [character], rest := rest, suffix := List.suffix_cons _ _ }
        | none => fault .unescapedBackslash rest

def basicString (multiline : Bool) (text : List Char) : Except Fault (Reading (List Char) text) :=
  match text with
  | [] => fault .unterminatedString []
  | first :: rest =>
      if first = '"' ∧ multiline = false then
        .ok { value := [], rest := rest, suffix := List.suffix_cons _ _ }
      else if first = '"' ∧ ['"', '"'].isPrefixOf rest = true then
        .ok
          { value := []
            rest := rest.drop 2
            suffix := suffix_cons_of_suffix _ (List.drop_suffix _ _) }
      else if first = '\\' then
        match escape multiline rest with
        | .error problem => .error problem
        | .ok character =>
            match basicString multiline character.rest with
            | .error problem => .error problem
            | .ok others =>
                .ok
                  { value := character.value ++ others.value
                    rest := others.rest
                    suffix := suffix_cons_of_suffix _ (others.suffix.trans character.suffix) }
      else if isControl first && !(multiline && first == '\n') then
        fault (.illegalCharacter first) (first :: rest)
      else
        (basicString multiline rest).map fun others =>
          (others.map (first :: ·)).widen (List.suffix_cons _ _)
termination_by text.length
decreasing_by
  all_goals simp only [List.length_cons]
  · have within := character.length_le
    omega
  · omega

theorem suffix_quote (rest : List Char) : rest <:+ '"' :: rest :=
  List.suffix_cons _ _

theorem suffix_apostrophe (rest : List Char) : rest <:+ '\x27' :: rest :=
  List.suffix_cons _ _

def keyPart (text : List Char) : Except Fault (Reading String text) :=
  match text with
  | '\x27' :: rest =>
      (literalUntil "'" isControl rest).map (·.widen (suffix_apostrophe rest))
  | '"' :: rest =>
      (basicString false rest).map fun content =>
        (content.map String.ofList).widen (suffix_quote rest)
  | [] => fault .invalidKeyStart []
  | first :: rest =>
      if isBareKeyChar first then
        .ok
          { value := String.ofList (first :: rest.takeWhile isBareKeyChar)
            rest := rest.dropWhile isBareKeyChar
            suffix := suffix_cons_of_suffix _ (List.dropWhile_suffix _) }
      else fault .invalidKeyStart (first :: rest)

def key (text : List Char) : Except Fault (Reading Key text) :=
  match keyPart text with
  | .error problem => .error problem
  | .ok part =>
      match remaining : skipSpaces part.rest with
      | '.' :: others =>
          have inside : others <:+ part.rest :=
            (List.suffix_cons '.' others).trans (remaining ▸ skipSpaces_suffix part.rest)
          have _shorter : (skipSpaces others).length < text.length := by
            have first := (skipSpaces_suffix others).length_le
            have second := (skipSpaces_suffix part.rest).length_le
            have third := part.length_le
            rw [remaining, List.length_cons] at second
            omega
          match key (skipSpaces others) with
          | .error problem => .error problem
          | .ok further =>
              .ok
                { value := part.value :: further.value
                  rest := further.rest
                  suffix := further.suffix.trans
                    ((skipSpaces_suffix others).trans (inside.trans part.suffix)) }
      | _ =>
          .ok
            { value := [part.value]
              rest := skipSpaces part.rest
              suffix := (skipSpaces_suffix _).trans part.suffix }
termination_by text.length

/-- Digits, with single underscores between them. -/
def digitRun (isDigit : Char → Bool) : List Char → List Char
  | '_' :: digit :: rest => if isDigit digit then '_' :: digit :: digitRun isDigit rest else []
  | digit :: rest => if isDigit digit then digit :: digitRun isDigit rest else []
  | [] => []

def digits (isDigit : Char → Bool) : List Char → List Char
  | digit :: rest => if isDigit digit then digit :: digitRun isDigit rest else []
  | [] => []

def isBinaryDigit (character : Char) : Bool :=
  character == '0' || character == '1'

def isOctalDigit (character : Char) : Bool :=
  '0' ≤ character && character ≤ '7'

def plainNumber (base : Nat) (spelling : List Char) : Int :=
  numberInBase base (spelling.filter (· != '_'))

/-- An integer in base sixteen, eight or two, and the length of its spelling. -/
def prefixedInteger? : List Char → Option (Int × Nat)
  | '0' :: mark :: rest =>
      let attempt := fun (base : Nat) (isDigit : Char → Bool) =>
        match digits isDigit rest with
        | [] => none
        | spelling => some (plainNumber base spelling, spelling.length + 2)
      match mark with
      | 'x' => attempt 16 isHexDigit
      | 'o' => attempt 8 isOctalDigit
      | 'b' => attempt 2 isBinaryDigit
      | _ => none
  | _ => none

def signOf : List Char → List Char
  | '+' :: _ => ['+']
  | '-' :: _ => ['-']
  | _ => []

/-- The whole part of a decimal number: zero, or digits that do not start with
zero. -/
def wholePart : List Char → List Char
  | '0' :: _ => ['0']
  | text => digits Char.isDigit text

def fractionPart : List Char → List Char
  | '.' :: rest =>
      match digits Char.isDigit rest with
      | [] => []
      | spelling => '.' :: spelling
  | _ => []

def exponentPart : List Char → List Char
  | mark :: rest =>
      if mark = 'e' ∨ mark = 'E' then
        let sign := signOf rest
        match digits Char.isDigit (rest.drop sign.length) with
        | [] => []
        | spelling => mark :: (sign ++ spelling)
      else []
  | [] => []

/-- How many digits a whole number in base ten may have. -/
def maxDigits : Nat := 4300

def wholeNumber (sign whole : List Char) : Except Problem Value :=
  if maxDigits < whole.countP Char.isDigit then .error .tooManyDigits
  else
    let size := plainNumber 10 whole
    .ok (.int (if sign = ['-'] then -size else size))

def decimalNumber? (text : List Char) : Option (Except Problem Value × Nat) :=
  let sign := signOf text
  let whole := wholePart (text.drop sign.length)
  if whole = [] then none
  else
    let afterWhole := text.drop (sign.length + whole.length)
    let fraction := fractionPart afterWhole
    let exponent := exponentPart (afterWhole.drop fraction.length)
    let spelling := sign ++ whole ++ fraction ++ exponent
    if fraction = [] ∧ exponent = [] then some (wholeNumber sign whole, spelling.length)
    else some (.ok (.decimal (String.ofList spelling)), spelling.length)

def specialNumbers : List String :=
  ["inf", "nan", "-inf", "+inf", "-nan", "+nan"]

def number? (text : List Char) : Option (Except Problem Value × Nat) :=
  match prefixedInteger? text with
  | some (value, length) => some (.ok (.int value), length)
  | none =>
      match decimalNumber? text with
      | some result => some result
      | none =>
          (specialNumbers.find? fun word => word.toList.isPrefixOf text).map fun word =>
            (.ok (.decimal word), word.toList.length)

end SageNotation.Config
