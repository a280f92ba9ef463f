import Mathlib.Data.Set.Subsingleton
import SageNotation.Proofs.Grammar.Progress
import SageNotation.Proofs.Grammar.Types

/-!
The grammar of types.

    Type   ::= name | name < Type (, Type)* > | ( ) | { Fields
    Fields ::= blank* Close | blank* ... blank* Close | blank* name : Type blank* ,? Fields
    Close  ::= } | the end of the input

A name alone is a type only where no angle bracket follows it, and the end of the
input is part of the grammar too, so a run of tokens is derived in front of the
tokens after it.  `typeExpr_exactly` says that the reader and the grammar agree: the
same runs, with the same trees and spans, and at most one of them at each place.
-/

namespace SageNotation

namespace Grammar

open Token

/-! ### Runs that are types -/

def Blank (run : List Token) : Prop :=
  ∀ token ∈ run, token.isTrivia = true

/-- The end of a record: a closing brace, or the end of the input. -/
inductive DerivesClose : List Token → List Token → Prop where
  | brace {closing : Token} {ahead : List Token} (kind : closing.kind = .rbrace) :
      DerivesClose [closing] ahead
  | ended {ahead : List Token} (atEnd : AtEnd ahead) : DerivesClose [] ahead

mutual

/-- The run is a type in front of the tokens ahead. -/
inductive DerivesType : List Token → TypeExpr → List Token → Prop where
  | named {name : Token} {ahead : List Token} (kind : name.kind = .identifier)
      (alone : isNext .less ahead = false) :
      DerivesType [name] (.named name.value name.span) ahead
  | generic {name opening closing : Token} {run ahead : List Token} {args : List TypeExpr}
      (kind : name.kind = .identifier) (opened : opening.kind = .less)
      (inner : DerivesArgs run args (closing :: ahead)) (closed : closing.kind = .greater) :
      DerivesType (name :: opening :: (run ++ [closing]))
        (.generic name.value args (extent name (opening :: (run ++ [closing])))) ahead
  | unit {opening closing : Token} {ahead : List Token} (opened : opening.kind = .lparen)
      (closed : closing.kind = .rparen) :
      DerivesType [opening, closing] (.named "()" (extent opening [closing])) ahead
  | record {opening : Token} {run ahead : List Token} {fields : List Field}
      (opened : opening.kind = .lbrace) (inner : DerivesFields run fields ahead) :
      DerivesType (opening :: run) (.record fields (extent opening run)) ahead

inductive DerivesArgs : List Token → List TypeExpr → List Token → Prop where
  | one {run ahead : List Token} {arg : TypeExpr} (type : DerivesType run arg ahead) :
      DerivesArgs run [arg] ahead
  | more {comma : Token} {run others ahead : List Token} {arg : TypeExpr} {args : List TypeExpr}
      (type : DerivesType run arg (comma :: (others ++ ahead))) (divided : comma.kind = .comma)
      (rest : DerivesArgs others args ahead) :
      DerivesArgs (run ++ comma :: others) (arg :: args) ahead

inductive DerivesFields : List Token → List Field → List Token → Prop where
  | closed {blank close ahead : List Token} (spaced : Blank blank)
      (stop : DerivesClose close ahead) : DerivesFields (blank ++ close) [] ahead
  | elided {dots : Token} {blank gap close ahead : List Token} (spaced : Blank blank)
      (kind : dots.kind = .ellipsis) (gapped : Blank gap) (stop : DerivesClose close ahead) :
      DerivesFields (blank ++ dots :: (gap ++ close)) [] ahead
  | field {name colon : Token} {comma : Option Token} {blank run gap others ahead : List Token}
      {type : TypeExpr} {fields : List Field} (spaced : Blank blank)
      (kind : name.kind = .identifier) (typed : colon.kind = .colon)
      (inner : DerivesType run type (gap ++ (comma.toList ++ (others ++ ahead))))
      (gapped : Blank gap) (divided : ∀ token ∈ comma, token.kind = .comma)
      (rest : DerivesFields others fields ahead) :
      DerivesFields (blank ++ name :: colon :: (run ++ (gap ++ (comma.toList ++ others))))
        (.mk name.value type (extent name (colon :: run)) :: fields) ahead

end

/-! ### What is derived is read -/

def Gives {α : Type} {tokens : List Token} (result : Option (Reading α tokens)) (value : α)
    (left : List Token) : Prop :=
  ∃ reading, result = some reading ∧ reading.value = value ∧ reading.rest = left

theorem expect_of_isNext {kind : Kind} {tokens : List Token} (other : isNext kind tokens = false) :
    expect kind tokens = none := by
  cases tokens with
  | nil => rfl
  | cons token rest => exact if_neg (beq_eq_false_iff_ne.mp other)

theorem gives_recordEnd {tokens left : List Token}
    (stop : (AtEnd left ∧ tokens = left) ∨ ∃ brace, brace.kind = .rbrace ∧ tokens = brace :: left) :
    Gives (recordEnd tokens) () left := by
  rcases stop with ⟨atEnd, rfl⟩ | ⟨brace, kind, rfl⟩
  · exact ⟨_, recordEnd_atEnd atEnd, rfl, rfl⟩
  · exact ⟨_, if_pos kind, rfl, rfl⟩

mutual

theorem ReadsType.gives : ∀ {tokens : List Token} {type : TypeExpr} {left : List Token},
    ReadsType tokens type left → Gives (typeExpr tokens) type left
  | _, _, _, .record brace inner => by
      obtain ⟨fields, read, rfl, rfl⟩ := inner.gives
      simp only [typeExpr, brace, read]
      exact ⟨_, rfl, rfl, rfl⟩
  | _, _, _, .unit parenthesis closed => by
      simp only [typeExpr, parenthesis, expect_of_kind closed]
      exact ⟨_, rfl, rfl, rfl⟩
  | _, _, _, .named name alone => by
      simp only [typeExpr, name, expect_of_isNext alone]
      exact ⟨_, rfl, rfl, rfl⟩
  | _, _, _, .generic name opened inner closed => by
      obtain ⟨args, read, rfl, behind⟩ := inner.gives
      simp only [typeExpr, name, expect_of_kind opened, read, expect_of_split behind closed]
      exact ⟨_, rfl, rfl, rfl⟩

theorem ReadsArgs.gives : ∀ {tokens : List Token} {args : List TypeExpr} {left : List Token},
    ReadsArgs tokens args left → Gives (typeArgs tokens) args left
  | _, _, _, .one type alone => by
      obtain ⟨arg, read, rfl, rfl⟩ := type.gives
      rw [typeArgs, read]
      simp only [expect_of_isNext alone]
      exact ⟨_, rfl, rfl, rfl⟩
  | _, _, _, .more type divided others => by
      obtain ⟨arg, read, rfl, behind⟩ := type.gives
      obtain ⟨args, readOthers, rfl, rfl⟩ := others.gives
      rw [typeArgs, read]
      simp only [expect_of_split behind divided, readOthers]
      exact ⟨_, rfl, rfl, rfl⟩

theorem ReadsFields.gives : ∀ {tokens : List Token} {fields : List Field} {left : List Token},
    ReadsFields tokens fields left → Gives (recordFields tokens) fields left
  | _, _, _, .ended atEnd => ⟨_, recordFields_atEnd atEnd, rfl, rfl⟩
  | _, _, _, .blank trivia others => by
      obtain ⟨fields, read, rfl, rfl⟩ := others.gives
      rw [recordFields, if_pos trivia, read]
      exact ⟨_, rfl, rfl, rfl⟩
  | _, _, _, .closed brace => by
      have plain := isTrivia_of_kind brace rfl
      simp only [recordFields, plain, brace]
      exact ⟨_, rfl, rfl, rfl⟩
  | _, _, _, .elided _ dots stop => by
      have plain := isTrivia_of_kind dots rfl
      obtain ⟨close, read, _, rfl⟩ := gives_recordEnd stop
      simp only [recordFields, plain, dots, read]
      exact ⟨_, rfl, rfl, rfl⟩
  | _, _, _, .field _ name typed inner others => by
      have plain := isTrivia_of_kind name rfl
      obtain ⟨type, read, rfl, rfl⟩ := inner.gives
      obtain ⟨fields, readOthers, rfl, rfl⟩ := others.gives
      simp only [recordFields, plain, name, expect_of_kind typed, read, readOthers]
      exact ⟨_, rfl, rfl, rfl⟩

end

/-! ### Blanks and dividers -/

theorem skipBlank_of_blank {blank : List Token} (spaced : Blank blank) (tokens : List Token) :
    skipBlank (blank ++ tokens) = skipBlank tokens :=
  List.dropWhile_append_of_pos spaced

theorem exists_blank (tokens : List Token) :
    ∃ blank, Blank blank ∧ tokens = blank ++ skipBlank tokens :=
  ⟨tokens.takeWhile isTrivia, List.all_eq_true.mp List.all_takeWhile,
    List.takeWhile_append_dropWhile.symm⟩

/-- A divider is a run of newlines and comments and at most one comma. -/
theorem exists_divider (tokens : List Token) :
    ∃ gap, ∃ comma : Option Token, Blank gap ∧ (∀ token ∈ comma, token.kind = .comma) ∧
      tokens = gap ++ (comma.toList ++ divider tokens) := by
  obtain ⟨gap, gapped, split⟩ := exists_blank tokens
  have none_comma : ∀ token ∈ (none : Option Token), token.kind = .comma := by
    intro token member
    cases member
  rw [divider]
  cases behind : skipBlank tokens with
  | nil =>
      rw [behind] at split
      exact ⟨gap, none, gapped, none_comma, split⟩
  | cons first rest =>
      rw [behind] at split
      rw [dropOne]
      by_cases comma : first.kind = .comma
      · rw [if_pos comma]
        refine ⟨gap, some first, gapped, ?_, split⟩
        intro token member
        cases member
        exact comma
      · rw [if_neg comma]
        exact ⟨gap, none, gapped, none_comma, split⟩

theorem divider_of_kind {first : Token} {kind : Kind} (same : first.kind = kind)
    (plain : kind.isTrivia = false) (other : kind ≠ .comma) (rest : List Token) :
    divider (first :: rest) = first :: rest := by
  have shown := isTrivia_of_kind same plain
  rw [divider, skipBlank, List.dropWhile_cons_of_neg (ne_true_of_eq_false shown), dropOne,
    if_neg (same ▸ other)]

theorem ReadsFields.divided {tokens left : List Token} {fields : List Field}
    (read : ReadsFields tokens fields left) : ReadsFields (divider tokens) fields left := by
  induction tokens with
  | nil => exact read
  | cons first rest ih =>
      cases read with
      | ended atEnd =>
          rw [divider_atEnd atEnd]
          exact .ended atEnd
      | blank trivia others =>
          rw [divider, skipBlank, List.dropWhile_cons_of_pos trivia]
          exact ih others
      | closed brace =>
          rw [divider_of_kind brace rfl (by decide)]
          exact .closed brace
      | elided _ dots stop =>
          rw [divider_of_kind dots rfl (by decide)]
          exact .elided rest dots stop
      | field colon name typed inner others =>
          rw [divider_of_kind name rfl (by decide)]
          exact .field colon name typed inner others

theorem ReadsFields.spaced {blank tokens left : List Token} {fields : List Field}
    (spaced : Blank blank) (read : ReadsFields tokens fields left) :
    ReadsFields (blank ++ tokens) fields left := by
  induction blank with
  | nil => exact read
  | cons first others ih =>
      obtain ⟨trivia, further⟩ := List.forall_mem_cons.mp spaced
      exact .blank trivia (ih further)

theorem ReadsFields.behind {gap tokens left : List Token} {comma : Option Token}
    {fields : List Field} (gapped : Blank gap) (divided : ∀ token ∈ comma, token.kind = .comma)
    (read : ReadsFields tokens fields left) :
    ReadsFields (divider (gap ++ (comma.toList ++ tokens))) fields left := by
  rw [divider, skipBlank_of_blank gapped]
  cases comma with
  | none => exact read.divided
  | some token =>
      have kind : token.kind = .comma := divided token rfl
      have plain := isTrivia_of_kind kind rfl
      have stays : skipBlank (token :: tokens) = token :: tokens :=
        List.dropWhile_cons_of_neg (ne_true_of_eq_false plain)
      rw [Option.toList_some, List.singleton_append, stays, dropOne, if_pos kind]
      exact read

/-! ### Runs that are derived are those that are read -/

theorem DerivesClose.cases {close ahead : List Token} (stop : DerivesClose close ahead) :
    (AtEnd ahead ∧ close ++ ahead = ahead) ∨
      ∃ brace, brace.kind = .rbrace ∧ close ++ ahead = brace :: ahead := by
  cases stop with
  | brace kind => exact Or.inr ⟨_, kind, rfl⟩
  | ended atEnd => exact Or.inl ⟨atEnd, rfl⟩

theorem DerivesClose.reads {close ahead : List Token} (stop : DerivesClose close ahead) :
    ReadsFields (close ++ ahead) [] ahead := by
  rcases stop.cases with ⟨atEnd, whole⟩ | ⟨brace, kind, whole⟩
  · rw [whole]
    exact .ended atEnd
  · rw [whole]
    exact .closed kind

theorem skipBlank_close {close ahead : List Token} (stop : DerivesClose close ahead) :
    skipBlank (close ++ ahead) = close ++ ahead := by
  rcases stop.cases with ⟨atEnd, whole⟩ | ⟨brace, kind, whole⟩
  · rw [whole]
    exact atEnd.skipBlank
  · rw [whole]
    exact List.dropWhile_cons_of_neg (ne_true_of_eq_false (isTrivia_of_kind kind rfl))

section Reads

variable {run ahead : List Token}

theorem through_run (first : Token) (run left : List Token) :
    first.through (run ++ left) left = extent first run := by
  rw [through_eq_extent, between_append]

theorem reads_generic {name opening closing : Token} {args : List TypeExpr}
    (kind : name.kind = .identifier) (opened : opening.kind = .less)
    (inner : ReadsArgs (run ++ closing :: ahead) args (closing :: ahead))
    (closed : closing.kind = .greater) :
    ReadsType (name :: opening :: (run ++ [closing]) ++ ahead)
      (.generic name.value args (extent name (opening :: (run ++ [closing]))))
      ahead := by
  have whole := ReadsType.generic kind opened inner closed
  have split : opening :: (run ++ closing :: ahead) =
      opening :: (run ++ [closing]) ++ ahead := by
    rw [List.cons_append, List.append_assoc, List.singleton_append]
  rw [split, through_run] at whole
  exact whole

theorem reads_field {name colon : Token} {comma : Option Token}
    {blank gap others : List Token} {type : TypeExpr} {fields : List Field}
    (spaced : Blank blank) (kind : name.kind = .identifier) (typed : colon.kind = .colon)
    (inner : ReadsType (run ++ (gap ++ (comma.toList ++ (others ++ ahead)))) type
      (gap ++ (comma.toList ++ (others ++ ahead))))
    (gapped : Blank gap) (divided : ∀ token ∈ comma, token.kind = .comma)
    (rest : ReadsFields (others ++ ahead) fields ahead) :
    ReadsFields
      (blank ++ name :: colon :: (run ++ (gap ++ (comma.toList ++ others))) ++ ahead)
      (.mk name.value type (extent name (colon :: run)) :: fields) ahead := by
  have whole := ReadsFields.field colon kind typed inner (rest.behind gapped divided)
  rw [← List.cons_append, through_run] at whole
  rw [List.append_assoc]
  apply ReadsFields.spaced spaced
  simp only [List.cons_append, List.append_assoc]
  exact whole

end Reads

mutual

theorem DerivesType.reads : ∀ {run : List Token} {type : TypeExpr} {ahead : List Token},
    DerivesType run type ahead → ReadsType (run ++ ahead) type ahead
  | _, _, _, .named kind alone => .named kind alone
  | _, _, _, .generic kind opened inner closed =>
      reads_generic kind opened (inner.reads (by rw [isNext, closed]; rfl)) closed
  | _, _, ahead, @DerivesType.unit opening closing _ opened closed => by
      rw [← through_run opening [closing] ahead]
      exact .unit opened closed
  | _, _, _, .record opened inner => by
      have whole := ReadsType.record opened inner.reads
      rw [through_run] at whole
      exact whole

theorem DerivesArgs.reads : ∀ {run : List Token} {args : List TypeExpr} {ahead : List Token},
    DerivesArgs run args ahead → isNext .comma ahead = false → ReadsArgs (run ++ ahead) args ahead
  | _, _, _, .one type, alone => .one type.reads alone
  | _, _, _, .more type divided rest, alone => by
      rw [List.append_assoc, List.cons_append]
      exact .more type.reads divided (rest.reads alone)

theorem DerivesFields.reads : ∀ {run : List Token} {fields : List Field} {ahead : List Token},
    DerivesFields run fields ahead → ReadsFields (run ++ ahead) fields ahead
  | _, _, _, .closed spaced stop => by
      rw [List.append_assoc]
      exact stop.reads.spaced spaced
  | _, _, _, .elided spaced kind gapped stop => by
      rw [List.append_assoc, List.cons_append, List.append_assoc]
      refine .spaced spaced (.elided _ kind ?_)
      rw [skipBlank_of_blank gapped, skipBlank_close stop]
      exact stop.cases
  | _, _, _, .field spaced kind typed inner gapped divided rest =>
      reads_field spaced kind typed inner.reads gapped divided rest.reads

end

/-! ### What is read is derived -/

theorem DerivesFields.blank {first : Token} {run ahead : List Token} {fields : List Field}
    (trivia : first.isTrivia = true) (derived : DerivesFields run fields ahead) :
    DerivesFields (first :: run) fields ahead := by
  have more : ∀ {blank : List Token}, Blank blank → Blank (first :: blank) :=
    fun spaced => List.forall_mem_cons.mpr ⟨trivia, spaced⟩
  cases derived with
  | closed spaced stop => exact .closed (more spaced) stop
  | elided spaced kind gapped stop => exact .elided (more spaced) kind gapped stop
  | field spaced kind typed inner gapped divided rest =>
      exact .field (more spaced) kind typed inner gapped divided rest

theorem exists_close {rest left : List Token}
    (stop : (AtEnd left ∧ skipBlank rest = left) ∨
      ∃ brace, brace.kind = .rbrace ∧ skipBlank rest = brace :: left) :
    ∃ gap close, rest = gap ++ close ++ left ∧ Blank gap ∧ DerivesClose close left := by
  obtain ⟨gap, gapped, split⟩ := exists_blank rest
  rcases stop with ⟨atEnd, behind⟩ | ⟨brace, kind, behind⟩
  · rw [behind] at split
    refine ⟨gap, [], ?_, gapped, .ended atEnd⟩
    rw [List.append_nil]
    exact split
  · rw [behind] at split
    refine ⟨gap, [brace], ?_, gapped, .brace kind⟩
    rw [List.append_assoc]
    exact split

mutual

/-- What was read is derived in front of what is left. -/
theorem ReadsType.derives : ∀ {tokens : List Token} {type : TypeExpr} {left : List Token},
    ReadsType tokens type left → ∃ run, tokens = run ++ left ∧ DerivesType run type left
  | _, _, left, @ReadsType.record first _ _ _ brace inner => by
      obtain ⟨run, rfl, derived⟩ := inner.derives
      rw [through_run]
      exact ⟨first :: run, rfl, .record brace derived⟩
  | _, _, left, @ReadsType.unit first closing _ parenthesis closed => by
      have span : first.through (closing :: left) left = extent first [closing] :=
        through_run first [closing] left
      rw [span]
      exact ⟨[first, closing], rfl, .unit parenthesis closed⟩
  | _, _, left, @ReadsType.named first _ name alone =>
      ⟨[first], rfl, .named name alone⟩
  | _, _, left, @ReadsType.generic first opening closing _ _ _ name opened inner closed => by
      obtain ⟨run, rfl, derived⟩ := inner.derives
      have whole : opening :: (run ++ closing :: left) = opening :: (run ++ [closing]) ++ left := by
        rw [List.cons_append, List.append_assoc, List.singleton_append]
      rw [whole, through_run]
      exact ⟨first :: opening :: (run ++ [closing]), rfl, .generic name opened derived closed⟩

theorem ReadsArgs.derives : ∀ {tokens : List Token} {args : List TypeExpr} {left : List Token},
    ReadsArgs tokens args left → ∃ run, tokens = run ++ left ∧ DerivesArgs run args left
  | _, _, _, .one type _ => by
      obtain ⟨run, split, derived⟩ := type.derives
      exact ⟨run, split, .one derived⟩
  | _, _, left, @ReadsArgs.more comma _ _ _ _ _ type divided others => by
      obtain ⟨more, rfl, further⟩ := others.derives
      obtain ⟨run, rfl, derived⟩ := type.derives
      refine ⟨run ++ comma :: more, ?_, .more derived divided further⟩
      rw [List.append_assoc, List.cons_append]

theorem ReadsFields.derives : ∀ {tokens : List Token} {fields : List Field} {left : List Token},
    ReadsFields tokens fields left →
      ∃ run, tokens = run ++ left ∧ DerivesFields run fields left
  | _, _, _, .ended atEnd => ⟨[], rfl, .closed (List.forall_mem_nil _) (.ended atEnd)⟩
  | _, _, _, @ReadsFields.blank first _ _ _ trivia others => by
      obtain ⟨run, rfl, derived⟩ := others.derives
      exact ⟨first :: run, rfl, derived.blank trivia⟩
  | _, _, _, @ReadsFields.closed first _ brace =>
      ⟨[first], rfl, .closed (List.forall_mem_nil _) (.brace brace)⟩
  | _, _, left, @ReadsFields.elided first rest _ dots stop => by
      obtain ⟨gap, close, rfl, gapped, closes⟩ := exists_close stop
      exact ⟨first :: (gap ++ close), rfl, .elided (List.forall_mem_nil _) dots gapped closes⟩
  | _, _, left, @ReadsFields.field first colon rest after _ type _ name typed inner others => by
      obtain ⟨run, rfl, derived⟩ := inner.derives
      obtain ⟨more, behind, further⟩ := others.derives
      obtain ⟨gap, comma, gapped, divided, split⟩ := exists_divider after
      rw [behind] at split
      rw [split, ← List.cons_append, through_run]
      rw [split] at derived
      refine ⟨first :: colon :: (run ++ (gap ++ (comma.toList ++ more))), ?_,
        .field (List.forall_mem_nil _) name typed derived gapped divided further⟩
      simp only [List.cons_append, List.append_assoc]

end

/-! ### The reader and the grammar agree -/

/-- Reading a type at a place of the tokens takes this run and gives this type. -/
def ReadsTypeAt (tokens : List Token) (place : Nat) (run : List Token) (type : TypeExpr) : Prop :=
  ∃ left, tokens.drop place = run ++ left ∧ Gives (typeExpr (tokens.drop place)) type left

/-- The run stands at the place and is this type. -/
def DerivesTypeAt (tokens : List Token) (place : Nat) (run : List Token) (type : TypeExpr) : Prop :=
  ∃ ahead, tokens.drop place = run ++ ahead ∧ DerivesType run type ahead

theorem readsTypeAt_iff {tokens run : List Token} {place : Nat} {type : TypeExpr} :
    ReadsTypeAt tokens place run type ↔ DerivesTypeAt tokens place run type := by
  constructor
  · rintro ⟨left, whole, reading, read, rfl, rfl⟩
    obtain ⟨taken, same, derived⟩ := (readsTypes.1 _ reading read).derives
    rw [List.append_cancel_right (same.symm.trans whole)] at derived
    exact ⟨reading.rest, whole, derived⟩
  · rintro ⟨ahead, split, derived⟩
    refine ⟨ahead, split, ?_⟩
    rw [split]
    exact derived.reads.gives

theorem readsTypeAt_unique {tokens run other : List Token} {place : Nat} {type second : TypeExpr}
    (here : ReadsTypeAt tokens place run type) (there : ReadsTypeAt tokens place other second) :
    run = other ∧ type = second := by
  obtain ⟨left, whole, reading, read, rfl, rfl⟩ := here
  obtain ⟨behind, split, again, found, rfl, rfl⟩ := there
  cases read.symm.trans found
  exact ⟨List.append_cancel_right (whole.symm.trans split), rfl⟩

/-- At every place of every list of tokens, a type is read exactly where the grammar
derives one, from the same run and with the same tree; and there is at most one. -/
theorem typeExpr_exactly (tokens : List Token) (place : Nat) :
    (∀ run type, ReadsTypeAt tokens place run type ↔ DerivesTypeAt tokens place run type) ∧
      {found : List Token × TypeExpr |
        DerivesTypeAt tokens place found.1 found.2}.Subsingleton := by
  refine ⟨fun run type => readsTypeAt_iff, ?_⟩
  rintro ⟨run, type⟩ here ⟨other, second⟩ there
  obtain ⟨rfl, rfl⟩ :=
    readsTypeAt_unique (readsTypeAt_iff.mpr here) (readsTypeAt_iff.mpr there)
  rfl

end Grammar

end SageNotation
