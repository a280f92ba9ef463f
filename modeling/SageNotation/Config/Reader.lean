import SageNotation.Config.Lexical
import SageNotation.Config.Moment

/-!
Reading a settings file: tables, arrays of tables and key/value lines.

A `Draft` is what has been read so far: the root table, the table that lines
belong to, and marks that say which keys may no longer be opened or extended.
-/

namespace SageNotation.Config

def put (name : String) (value : Value) : Table → Table
  | [] => [(name, value)]
  | (other, old) :: rest =>
      if other = name then (name, value) :: rest else (other, old) :: put name value rest

/-- Change the table that a key leads to, with new tables on the way where there
are none.  With `throughLists` a list of tables stands for its last table. -/
def changeAt (throughLists : Bool) (change : Table → Except Problem Table) :
    Key → Table → Except Problem Table
  | [], table => change table
  | name :: path, table =>
      match table.lookup name with
      | none =>
          (changeAt throughLists change path []).map fun inner => table ++ [(name, .table inner)]
      | some (.table inner) =>
          (changeAt throughLists change path inner).map fun changed =>
            put name (.table changed) table
      | some (.list items) =>
          match throughLists, items.getLast? with
          | true, some (.table inner) =>
              (changeAt throughLists change path inner).map fun changed =>
                put name (.list (items.dropLast ++ [.table changed])) table
          | _, _ => .error .overwritten
      | some _ => .error .overwritten

/-- Add an empty table to the list of tables under a key. -/
def appendTable (path : Key) (name : String) (table : Table) : Except Problem Table :=
  changeAt true
    (fun inner =>
      match inner.lookup name with
      | none => .ok (inner ++ [(name, .list [.table []])])
      | some (.list items) => .ok (put name (.list (items ++ [.table []])) inner)
      | some _ => .error .overwritten)
    path table

def assign (throughLists : Bool) (taken : Problem) (path : Key) (name : String) (value : Value)
    (table : Table) : Except Problem Table :=
  changeAt throughLists
    (fun inner =>
      if (inner.lookup name).isSome then .error taken else .ok (inner ++ [(name, value)]))
    path table

inductive Mark where
  | frozen
  | declared
  deriving DecidableEq

/-- A mark on a key; a deep one holds for every longer key too. -/
structure Marking where
  key : Key
  mark : Mark
  deep : Bool
  deriving DecidableEq

def isMarked (markings : List Marking) (key : Key) (mark : Mark) : Bool :=
  markings.any fun marking =>
    marking.mark == mark &&
      (marking.key == key || (marking.deep && marking.key.isPrefixOf key))

def unmark (markings : List Marking) (key : Key) : List Marking :=
  markings.filter fun marking => !key.isPrefixOf marking.key

structure Draft where
  table : Table
  header : Key
  markings : List Marking
  pending : List Key

namespace Draft

def empty : Draft :=
  { table := [], header := [], markings := [], pending := [] }

def mark (draft : Draft) (key : Key) (mark : Mark) (deep : Bool) : Draft :=
  { draft with markings := ⟨key, mark, deep⟩ :: draft.markings }

/-- Keys that dotted lines have opened can no longer be declared. -/
def settle (draft : Draft) : Draft :=
  { draft with
    markings := draft.pending.map (⟨·, .declared, false⟩) ++ draft.markings
    pending := [] }

def openTable (draft : Draft) (key : Key) : Except Problem Draft :=
  if isMarked draft.markings key .declared || isMarked draft.markings key .frozen then
    .error (.declaredTwice key)
  else
    (changeAt true .ok key draft.table).map fun table =>
      { draft.mark key .declared false with table := table, header := key }

def openListItem (draft : Draft) (key : Key) : Except Problem Draft :=
  if isMarked draft.markings key .frozen then .error (.immutable key)
  else
    (appendTable key.dropLast (key.getLastD "") draft.table).map fun table =>
      { table := table
        header := key
        markings := ⟨key, .declared, false⟩ :: unmark draft.markings key
        pending := draft.pending }

def properPrefixes (key : Key) : List Key :=
  (List.range (key.length - 1)).map fun index => key.take (index + 1)

def assign (draft : Draft) (key : Key) (value : Value) : Except Problem Draft :=
  let opened := (properPrefixes key).map (draft.header ++ ·)
  let parent := draft.header ++ key.dropLast
  match opened.find? (isMarked draft.markings · .declared) with
  | some taken => .error (.redefined taken)
  | none =>
      if isMarked draft.markings parent .frozen then .error (.immutable parent)
      else
        (Config.assign true .overwritten parent (key.getLastD "") value draft.table).map
          fun table =>
            let next := { draft with table := table, pending := draft.pending ++ opened }
            if value.isCollection then next.mark (draft.header ++ key) .frozen true else next

end Draft

/-- At most two quotes that belong to a long string although they follow three. -/
def extraQuotes (quote : Char) : List Char → Nat
  | first :: second :: _ =>
      if first = quote then if second = quote then 2 else 1 else 0
  | [first] => if first = quote then 1 else 0
  | [] => 0

def closeLong (quote : Char) {text : List Char} (content : Reading (List Char) text) :
    Reading Value text :=
  let extra := extraQuotes quote content.rest
  { value := .text (String.ofList (content.value ++ List.replicate extra quote))
    rest := content.rest.drop extra
    suffix := (List.drop_suffix _ _).trans content.suffix }

/-- A newline right after the opening quotes is not part of the string. -/
def dropNewline : List Char → List Char
  | '\n' :: rest => rest
  | text => text

theorem dropNewline_suffix (text : List Char) : dropNewline text <:+ text := by
  unfold dropNewline
  split
  · exact List.suffix_cons _ _
  · exact List.suffix_rfl

def momentOrNumber (text : List Char) : Except Fault (Reading Value text) :=
  match Moment.ofChars? text with
  | some moment =>
      if moment.isReal then
        .ok
          { value := .moment (String.ofList (text.take moment.length))
            rest := text.drop moment.length
            suffix := List.drop_suffix _ _ }
      else fault .invalidDate text
  | none =>
      match number? text with
      | some (.ok value, length) =>
          .ok { value := value, rest := text.drop length, suffix := List.drop_suffix _ _ }
      | some (.error problem, _) => fault problem text
      | none => fault .invalidValue text

def scalar (text : List Char) : Except Fault (Reading Value text) :=
  match text with
  | '"' :: '"' :: '"' :: rest =>
      (basicString true (dropNewline rest)).map fun content =>
        (closeLong '"' content).widen ((dropNewline_suffix rest).trans ⟨['"', '"', '"'], rfl⟩)
  | '"' :: rest =>
      (basicString false rest).map fun content =>
        (content.map fun characters => Value.text (String.ofList characters)).widen
          (suffix_quote rest)
  | '\x27' :: '\x27' :: '\x27' :: rest =>
      (literalUntil "'''" isMultilineControl (dropNewline rest)).map fun content =>
        (closeLong '\x27' (content.map String.toList)).widen
          ((dropNewline_suffix rest).trans ⟨['\x27', '\x27', '\x27'], rfl⟩)
  | '\x27' :: rest =>
      (literalUntil "'" isControl rest).map fun content =>
        (content.map Value.text).widen (suffix_apostrophe rest)
  | 't' :: 'r' :: 'u' :: 'e' :: rest =>
      .ok { value := .bool true, rest := rest, suffix := ⟨"true".toList, rfl⟩ }
  | 'f' :: 'a' :: 'l' :: 's' :: 'e' :: rest =>
      .ok { value := .bool false, rest := rest, suffix := ⟨"false".toList, rfl⟩ }
  | others => momentOrNumber others

def keyAndEquals (text : List Char) : Except Fault (Reading Key text) :=
  match key text with
  | .error problem => .error problem
  | .ok name =>
      match remaining : name.rest with
      | '=' :: rest =>
          .ok
            { value := name.value
              rest := skipSpaces rest
              suffix := (skipSpaces_suffix rest).trans
                ((List.suffix_cons '=' rest).trans (remaining ▸ name.suffix)) }
      | others => fault .expectedEquals others

/-- How deep values may stand in one another.  An array counts two levels and an
inline table three. -/
def maxNesting : Nat := 981

mutual

/-- A value that stands so many levels deep. -/
def value (nesting : Nat) (text : List Char) : Except Fault (Reading Value text) :=
  if maxNesting < nesting then fault .nestedTooDeep text
  else
    match text with
    | '[' :: rest =>
        match arrayGap rest with
        | .error problem => .error problem
        | .ok gap =>
            match remaining : gap.rest with
            | ']' :: after =>
                .ok
                  { value := .list []
                    rest := after
                    suffix := suffix_cons_of_suffix _
                      ((List.suffix_cons ']' after).trans (remaining ▸ gap.suffix)) }
            | _ =>
                (arrayItems (nesting + 2) [] gap.rest).map fun reading =>
                  reading.widen (suffix_cons_of_suffix _ gap.suffix)
    | '{' :: rest =>
        match remaining : skipSpaces rest with
        | '}' :: after =>
            .ok
              { value := .table []
                rest := after
                suffix := suffix_cons_of_suffix _
                  ((List.suffix_cons '}' after).trans (remaining ▸ skipSpaces_suffix rest)) }
        | _ =>
            (inlineEntries (nesting + 3) [] [] (skipSpaces rest)).map fun reading =>
              reading.widen (suffix_cons_of_suffix _ (skipSpaces_suffix rest))
    | others => scalar others
termination_by 2 * text.length
decreasing_by
  all_goals simp only [List.length_cons]
  · have within := gap.length_le
    omega
  · have within := (skipSpaces_suffix rest).length_le
    omega

def arrayItems (nesting : Nat) (earlier : List Value) (text : List Char) :
    Except Fault (Reading Value text) :=
  match value nesting text with
  | .error problem => .error problem
  | .ok item =>
      match arrayGap item.rest with
      | .error problem => .error problem
      | .ok gap =>
          match remaining : gap.rest with
          | ']' :: after =>
              .ok
                { value := .list (earlier ++ [item.value])
                  rest := after
                  suffix := (List.suffix_cons ']' after).trans
                    ((remaining ▸ gap.suffix).trans item.suffix) }
          | ',' :: more =>
              match arrayGap more with
              | .error problem => .error problem
              | .ok next =>
                  have inside : next.rest <:+ text :=
                    next.suffix.trans ((List.suffix_cons ',' more).trans
                      ((remaining ▸ gap.suffix).trans item.suffix))
                  match final : next.rest with
                  | ']' :: after =>
                      .ok
                        { value := .list (earlier ++ [item.value])
                          rest := after
                          suffix := (List.suffix_cons ']' after).trans (final ▸ inside) }
                  | _ =>
                      (arrayItems nesting (earlier ++ [item.value]) next.rest).map
                        (·.widen inside)
          | others => fault .unclosedArray others
termination_by 2 * text.length + 1
decreasing_by
  · omega
  · have first := next.length_le
    have second := gap.length_le
    have third := item.length_le
    rw [remaining, List.length_cons] at second
    omega

def inlineEntries (nesting : Nat) (table : Table) (frozen : List Marking) (text : List Char) :
    Except Fault (Reading Value text) :=
  match keyAndEquals text with
  | .error problem => .error problem
  | .ok name =>
      match value nesting name.rest with
      | .error problem => .error problem
      | .ok content =>
          if isMarked frozen name.value .frozen then
            fault (.immutable name.value) content.rest
          else
            let stem := name.value.getLastD ""
            match assign false (.duplicateInlineKey stem) name.value.dropLast stem content.value
                table with
            | .error problem => fault problem content.rest
            | .ok extended =>
                have inside : skipSpaces content.rest <:+ text :=
                  (skipSpaces_suffix _).trans (content.suffix.trans name.suffix)
                match remaining : skipSpaces content.rest with
                | '}' :: after =>
                    .ok
                      { value := .table extended
                        rest := after
                        suffix := (List.suffix_cons '}' after).trans (remaining ▸ inside) }
                | ',' :: more =>
                    let marks :=
                      if content.value.isCollection then ⟨name.value, .frozen, true⟩ :: frozen
                      else frozen
                    (inlineEntries nesting extended marks (skipSpaces more)).map fun reading =>
                      reading.widen ((skipSpaces_suffix more).trans
                        ((List.suffix_cons ',' more).trans (remaining ▸ inside)))
                | others => fault .unclosedInlineTable others
termination_by 2 * text.length + 1
decreasing_by
  · have within := name.length_le
    omega
  · have first := (skipSpaces_suffix more).length_le
    have second := inside.length_le
    rw [remaining, List.length_cons] at second
    omega

end

def headerKey (text : List Char) : Except Fault (Reading Key text) :=
  (key (skipSpaces text)).map (·.widen (skipSpaces_suffix text))

/-- Run a step of the draft whose problem belongs to this place. -/
def atPlace {α : Type} (text : List Char) : Except Problem α → Except Fault α
  | .ok result => .ok result
  | .error problem => fault problem text

def tableHeader (draft : Draft) (text : List Char) : Except Fault (Reading Draft text) :=
  match headerKey text with
  | .error problem => .error problem
  | .ok name =>
      match atPlace name.rest (draft.settle.openTable name.value) with
      | .error problem => .error problem
      | .ok next =>
          match remaining : name.rest with
          | ']' :: rest =>
              .ok
                { value := next
                  rest := rest
                  suffix := (List.suffix_cons ']' rest).trans (remaining ▸ name.suffix) }
          | others => fault .expectedTableEnd others

def listHeader (draft : Draft) (text : List Char) : Except Fault (Reading Draft text) :=
  match headerKey text with
  | .error problem => .error problem
  | .ok name =>
      match atPlace name.rest (draft.settle.openListItem name.value) with
      | .error problem => .error problem
      | .ok next =>
          match remaining : name.rest with
          | ']' :: ']' :: rest =>
              .ok
                { value := next
                  rest := rest
                  suffix := ((List.suffix_cons ']' rest).trans (List.suffix_cons ']' _)).trans
                    (remaining ▸ name.suffix) }
          | others => fault .expectedArrayEnd others

def keyValueLine (draft : Draft) (text : List Char) : Except Fault (Reading Draft text) :=
  match keyAndEquals text with
  | .error problem => .error problem
  | .ok name =>
      match value 0 name.rest with
      | .error problem => .error problem
      | .ok content =>
          (atPlace content.rest (draft.assign name.value content.value)).map fun next =>
            { value := next
              rest := content.rest
              suffix := content.suffix.trans name.suffix }

def startsKey (character : Char) : Bool :=
  isBareKeyChar character || character == '"' || character == '\x27'

def statement (draft : Draft) (text : List Char) : Except Fault (Reading Draft text) :=
  match text with
  | '[' :: '[' :: rest =>
      (listHeader draft rest).map (·.widen ⟨['[', '['], rfl⟩)
  | '[' :: rest => (tableHeader draft rest).map (·.widen (List.suffix_cons _ _))
  | '#' :: _ => .ok (.nothing draft)
  | [] => .ok (.nothing draft)
  | first :: rest =>
      if startsKey first then keyValueLine draft (first :: rest)
      else fault .invalidStatement (first :: rest)

def lineTail (text : List Char) : Except Fault (Reading Unit text) :=
  (comment (skipSpaces text)).map (·.widen (skipSpaces_suffix text))

def statements (draft : Draft) (text : List Char) : Except Fault Table :=
  match skipped : skipSpaces text with
  | [] => .ok draft.table
  | '\n' :: rest =>
      have _shorter : rest.length < text.length := by
        have within := (skipSpaces_suffix text).length_le
        rw [skipped, List.length_cons] at within
        omega
      statements draft rest
  | line =>
      match statement draft line with
      | .error problem => .error problem
      | .ok next =>
          match lineTail next.rest with
          | .error problem => .error problem
          | .ok tail =>
              match remaining : tail.rest with
              | [] => .ok next.value.table
              | '\n' :: rest =>
                  have _shorter : rest.length < text.length := by
                    have first := (skipSpaces_suffix text).length_le
                    have second := next.length_le
                    have third := tail.length_le
                    rw [skipped] at first
                    rw [remaining, List.length_cons] at third
                    omega
                  statements next.value rest
              | others => fault .expectedLineEnd others
termination_by text.length

/-- Carriage returns before newlines do not count. -/
def dropReturns : List Char → List Char
  | '\r' :: '\n' :: rest => '\n' :: dropReturns rest
  | character :: rest => character :: dropReturns rest
  | [] => []

def read (text : List Char) : Except Fault Table :=
  statements .empty text

end SageNotation.Config
