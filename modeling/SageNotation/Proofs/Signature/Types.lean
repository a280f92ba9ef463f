import SageNotation.Document.Signature
import SageNotation.Proofs.Document.Unplaced
import SageNotation.Proofs.Grammar.Types
import SageNotation.Proofs.Token.Spelling
import Mathlib.Data.List.Forall2

/-!
Types read back from their text.

A type is legible when its names are names of the notation; every type that was
read from a source is.  The text of a legible type is cut into the signs
`TypeExpr.signs` wherever it stands, and reading tokens with these signs gives the
type again, up to spans.
-/

namespace SageNotation

open Token

/-! ### Written text -/

/-- Text that extends no token of a header before it. -/
structure Detached (text : List Char) : Prop where
  word : EndsWord text
  equals : NoEquals text

theorem detached_nil : Detached [] := by
  refine ⟨endsWord_nil, ?_⟩
  intro next member
  cases member

theorem detached_cons {first : Char} {rest : List Char} (apart : isWordChar first = false)
    (unequal : first ≠ '=') : Detached (first :: rest) := by
  constructor
  · intro next member
    cases member
    exact apart
  · intro next member
    cases member
    exact unequal

/-- The text extends nothing before it, and is cut into these signs in front of
every text. -/
structure Punctuates (text : List Char) (written : List (Kind × String)) : Prop where
  apart : ∀ rest, Detached (text ++ rest)
  cut : ∀ rest, signs (text ++ rest) = written ++ signs rest

namespace Punctuates

theorem blank : Punctuates [' '] [] :=
  ⟨fun _ => detached_cons rfl (by decide), signs_space⟩

theorem mark {character : Char} {kind : Kind} (known : (character, kind) ∈ punctuation) :
    Punctuates [character] [(kind, String.ofList [character])] := by
  have plain : ∀ entry ∈ punctuation, isWordChar entry.1 = false ∧ entry.1 ≠ '=' := by decide
  obtain ⟨apart, unequal⟩ := plain _ known
  exact ⟨fun _ => detached_cons apart unequal, signs_punctuation known⟩

theorem append {left right : List Char} {front back : List (Kind × String)}
    (here : Punctuates left front) (next : Punctuates right back) :
    Punctuates (left ++ right) (front ++ back) := by
  constructor
  · intro rest
    rw [List.append_assoc]
    exact here.apart _
  · intro rest
    rw [List.append_assoc, here.cut, next.cut, List.append_assoc]

theorem colon : Punctuates ": ".toList [(.colon, ":")] :=
  (mark (by decide)).append blank

theorem comma : Punctuates ", ".toList [(.comma, ",")] :=
  (mark (by decide)).append blank

theorem openBrace : Punctuates "\x7b ".toList [(.lbrace, "\x7b")] :=
  (mark (by decide)).append blank

theorem unit : Punctuates "()".toList [(.lparen, "("), (.rparen, ")")] :=
  (mark (by decide)).append (mark (by decide))

theorem emptyBraces : Punctuates "\x7b\x7d".toList [(.lbrace, "\x7b"), (.rbrace, "\x7d")] :=
  (mark (by decide)).append (mark (by decide))

theorem closeBrace : Punctuates " \x7d".toList [(.rbrace, "\x7d")] :=
  blank.append (mark (by decide))

end Punctuates

/-- The text is cut into these signs in front of every detached text. -/
structure Writes (text : String) (written : List (Kind × String)) : Prop where
  start : ∀ rest, NoEquals rest → NoEquals (text.toList ++ rest)
  reads : ∀ rest, Detached rest → signs (text.toList ++ rest) = written ++ signs rest

namespace Writes

variable {name text mark other : String} {written marks others : List (Kind × String)}

theorem of_name (named : IsName name) : Writes name [(.identifier, name)] := by
  constructor
  · intro rest _
    exact named.noEquals rest
  · intro rest detached
    rw [named.signs_eq detached.word]
    rfl

theorem of_empty : Writes "" [] :=
  ⟨fun _ apart => apart, fun _ _ => rfl⟩

theorem join (here : Writes text written) (between : Punctuates mark.toList marks)
    (next : Writes other others) :
    Writes (text ++ mark ++ other) (written ++ (marks ++ others)) := by
  constructor
  · intro rest _
    rw [String.toList_append, String.toList_append, List.append_assoc, List.append_assoc]
    exact here.start _ (between.apart _).equals
  · intro rest detached
    rw [String.toList_append, String.toList_append, List.append_assoc, List.append_assoc,
      here.reads _ (between.apart _), between.cut, next.reads rest detached, List.append_assoc,
      List.append_assoc]

theorem opened (before : Punctuates mark.toList marks) (next : Writes other others) :
    Writes (mark ++ other) (marks ++ others) := by
  have joined := of_empty.join before next
  rw [String.empty_append] at joined
  exact joined

theorem closed (here : Writes text written) (after : Punctuates mark.toList marks) :
    Writes (text ++ mark) (written ++ marks) := by
  have joined := here.join after of_empty
  rw [String.append_empty, List.append_nil] at joined
  exact joined

/-- A name with arguments between angle brackets.  These are no punctuation of the
other sort, since an equals sign may follow them. -/
theorem applied (named : IsName name) (args : Writes text written) :
    Writes (name ++ "<" ++ text ++ ">")
      ((.identifier, name) :: (.less, "<") :: (written ++ [(.greater, ">")])) := by
  have opened : ∀ rest, EndsWord ("<".toList ++ rest) := by
    intro rest next member
    cases member
    rfl
  have closed : ∀ rest, Detached (">".toList ++ rest) :=
    fun rest => detached_cons rfl (by decide)
  constructor
  · intro rest _
    simp only [String.toList_append, List.append_assoc]
    exact named.noEquals _
  · intro rest detached
    have inner := args.reads _ (closed rest)
    have apart := args.start _ (closed rest).equals
    have closing : signs (">".toList ++ rest) = (.greater, ">") :: signs rest :=
      signs_greater detached.equals
    have opening := signs_less apart
    simp only [String.toList_append, List.append_assoc]
    rw [named.signs_eq (opened _)]
    change _ :: signs ('<' :: (text.toList ++ (">".toList ++ rest))) = _
    rw [opening, inner, closing]
    simp only [List.cons_append, List.append_assoc, List.nil_append]

end Writes

def divided (pieces : List (List (Kind × String))) : List (Kind × String) :=
  [(Kind.comma, ",")].intercalate pieces

/-- What follows the first of several entries: a comma and the others, if there are any. -/
def behindEntry : List (List (Kind × String)) → List (Kind × String)
  | [] => []
  | second :: others => (.comma, ",") :: divided (second :: others)

theorem divided_cons (first : List (Kind × String)) (others : List (List (Kind × String))) :
    divided (first :: others) = first ++ behindEntry others := by
  cases others with
  | nil =>
      rw [divided, List.intercalate_singleton]
      exact (List.append_nil first).symm
  | cons second others =>
      rw [divided, List.intercalate_cons_cons, List.append_assoc]
      rfl

theorem writes_divided {texts : List String} {pieces : List (List (Kind × String))}
    (each : List.Forall₂ Writes texts pieces) :
    Writes (String.intercalate ", " texts) (divided pieces) := by
  induction each with
  | nil => exact ⟨fun rest apart => apart, fun rest _ => rfl⟩
  | cons here others ih =>
      rw [divided_cons]
      cases others with
      | nil =>
          rw [String.intercalate_singleton, behindEntry, List.append_nil]
          exact here
      | cons next further =>
          rw [String.intercalate_cons_cons]
          exact here.join .comma ih

/-! ### Legible types and their signs -/

mutual

/-- Every name in the type is one of the notation, and no angle brackets are empty. -/
def TypeExpr.Legible : TypeExpr → Prop
  | .named name _ => name = "()" ∨ IsName name
  | .generic name args _ => IsName name ∧ args ≠ [] ∧ TypesLegible args
  | .record fields _ => FieldsLegible fields
  | .verbatim _ => False

def TypesLegible : List TypeExpr → Prop
  | [] => True
  | type :: others => type.Legible ∧ TypesLegible others

def FieldsLegible : List Field → Prop
  | [] => True
  | .mk name type _ :: others => IsName name ∧ type.Legible ∧ FieldsLegible others

end

mutual

def TypeExpr.signs : TypeExpr → List (Kind × String)
  | .named name _ => if name = "()" then [(.lparen, "("), (.rparen, ")")] else [(.identifier, name)]
  | .generic name args _ =>
      (.identifier, name) :: (.less, "<") :: (divided (typesSigns args) ++ [(.greater, ">")])
  | .record fields _ => (.lbrace, "\x7b") :: (divided (fieldsSigns fields) ++ [(.rbrace, "\x7d")])
  | .verbatim _ => []

def typesSigns : List TypeExpr → List (List (Kind × String))
  | [] => []
  | type :: others => type.signs :: typesSigns others

def fieldsSigns : List Field → List (List (Kind × String))
  | [] => []
  | .mk name type _ :: others =>
      ((.identifier, name) :: (.colon, ":") :: type.signs) :: fieldsSigns others

end

theorem formatFields_eq_nil {fields : List Field} (empty : formatFields fields = []) :
    fields = [] := by
  cases fields with
  | nil => rfl
  | cons field others =>
      cases field
      rw [formatFields] at empty
      cases empty

mutual

theorem TypeExpr.Legible.writes : ∀ {type : TypeExpr}, type.Legible → Writes type.format type.signs
  | .named name _, legible => by
      rw [TypeExpr.format, TypeExpr.signs]
      rcases legible with rfl | named
      · rw [if_pos rfl]
        exact Writes.of_empty.closed .unit
      · rw [if_neg named.ne_unit]
        exact .of_name named
  | .generic name args _, legible => by
      obtain ⟨named, _, inner⟩ := legible
      rw [TypeExpr.format, TypeExpr.signs]
      exact .applied named (writes_divided (types_write inner))
  | .record fields _, legible => by
      rw [TypeExpr.Legible] at legible
      have each := fields_write legible
      rw [TypeExpr.format, TypeExpr.signs]
      split
      · rename_i empty
        rw [formatFields_eq_nil empty]
        exact Writes.of_empty.closed .emptyBraces
      · exact .closed (.opened .openBrace (writes_divided each)) .closeBrace
  | .verbatim _, legible => False.elim legible

theorem types_write : ∀ {types : List TypeExpr}, TypesLegible types →
    List.Forall₂ Writes (formatTypes types) (typesSigns types)
  | [], _ => by
      rw [formatTypes, typesSigns]
      exact .nil
  | _ :: _, legible => by
      obtain ⟨first, others⟩ := legible
      rw [formatTypes, typesSigns]
      exact .cons first.writes (types_write others)

theorem fields_write : ∀ {fields : List Field}, FieldsLegible fields →
    List.Forall₂ Writes (formatFields fields) (fieldsSigns fields)
  | [], _ => by
      rw [formatFields, fieldsSigns]
      exact .nil
  | .mk _ _ _ :: _, legible => by
      obtain ⟨named, type, others⟩ := legible
      rw [formatFields, fieldsSigns]
      exact .cons ((Writes.of_name named).join .colon type.writes) (fields_write others)

end

/-! ### Reading the signs -/

section Signs

variable {tokens : List Token} {more : List (Kind × String)} {kind : Kind} {value : String}

theorem exists_of_sign (given : tokens.map sign = (kind, value) :: more) :
    ∃ token rest, tokens = token :: rest ∧ token.kind = kind ∧ token.value = value ∧
      rest.map sign = more := by
  obtain ⟨token, rest, split, here, others⟩ := List.map_eq_cons_iff.mp given
  obtain ⟨sort, content⟩ := Prod.mk.inj here
  exact ⟨token, rest, split, sort, content, others⟩

theorem expect_of_sign (given : tokens.map sign = (kind, value) :: more) :
    ∃ taken, expect kind tokens = some taken ∧ taken.token.value = value ∧
      taken.rest.map sign = more := by
  obtain ⟨token, rest, split, sort, content, others⟩ := exists_of_sign given
  exact ⟨⟨token, rest, split⟩, expect_of_split split sort, content, others⟩

def Lacks (kind : Kind) (more : List (Kind × String)) : Prop :=
  ∀ next ∈ more.head?, next.1 ≠ kind

theorem lacks_nil (kind : Kind) : Lacks kind [] := by
  intro next member
  cases member

theorem lacks_cons {other : Kind} (different : other ≠ kind) (value : String)
    (more : List (Kind × String)) : Lacks kind ((other, value) :: more) := by
  intro next member
  cases member
  exact different

theorem expect_of_lacks (lacks : Lacks kind (tokens.map sign)) : expect kind tokens = none := by
  cases tokens with
  | nil => rfl
  | cons token rest => exact if_neg (lacks (sign token) rfl)

/-- Something is read that is like the wanted value, and these signs are left. -/
def Restores {α β : Type} (view : α → β) (wanted : β) (more : List (Kind × String))
    (result : Option (Reading α tokens)) : Prop :=
  ∃ reading, result = some reading ∧ view reading.value = wanted ∧ reading.rest.map sign = more

end Signs

namespace Grammar

theorem lacks_behindEntry {kind other : Kind} (entries : List (List (Kind × String)))
    (value : String) (more : List (Kind × String)) (divider : Kind.comma ≠ kind)
    (closing : other ≠ kind) : Lacks kind (behindEntry entries ++ (other, value) :: more) := by
  cases entries with
  | nil => exact lacks_cons closing value more
  | cons entry entries => exact lacks_cons divider _ _

/-- Between two entries, and before what closes them, the divider leaves out the
comma and nothing else. -/
theorem map_sign_divider {tokens : List Token} {kind : Kind} {value : String}
    {entries : List (List (Kind × String))} {more : List (Kind × String)}
    (given : tokens.map sign = behindEntry entries ++ (kind, value) :: more)
    (plain : kind.isTrivia = false) (closing : kind ≠ .comma) :
    (divider tokens).map sign = divided entries ++ (kind, value) :: more := by
  cases entries with
  | nil =>
      obtain ⟨first, rest, rfl, sort, _, _⟩ := exists_of_sign given
      have shown : first.isTrivia = false := isTrivia_of_kind sort plain
      rw [divider, skipBlank, List.dropWhile_cons, shown]
      simp only [Bool.false_eq_true, if_false]
      rw [dropOne, if_neg (by rw [sort]; exact closing)]
      exact given
  | cons entry entries =>
      obtain ⟨first, rest, rfl, sort, _, behind⟩ := exists_of_sign given
      have shown : first.isTrivia = false := isTrivia_of_kind sort rfl
      rw [divider, skipBlank, List.dropWhile_cons, shown]
      simp only [Bool.false_eq_true, if_false]
      rw [dropOne, if_pos sort]
      exact behind

mutual

theorem typeExpr_restores : ∀ {type : TypeExpr}, type.Legible → ∀ {tokens : List Token}
    {more : List (Kind × String)}, tokens.map sign = type.signs ++ more → Lacks .less more →
      Restores TypeExpr.unplaced type.unplaced more (typeExpr tokens)
  | .named name _, legible, tokens, more, given, lacks => by
      rw [TypeExpr.signs] at given
      rcases legible with rfl | named
      · rw [if_pos rfl] at given
        obtain ⟨first, rest, rfl, sort, _, behind⟩ := exists_of_sign given
        obtain ⟨closing, found, _, left⟩ := expect_of_sign behind
        simp only [typeExpr, sort, found]
        exact ⟨_, rfl, by simp only [TypeExpr.unplaced], left⟩
      · rw [if_neg named.ne_unit] at given
        obtain ⟨first, rest, rfl, sort, content, left⟩ := exists_of_sign given
        -- What follows a plain name must not open arguments.
        have alone : expect .less rest = none := by
          apply expect_of_lacks
          rw [left]
          exact lacks
        simp only [typeExpr, sort, alone]
        exact ⟨_, rfl, by simp only [TypeExpr.unplaced, content], left⟩
  | .generic name args _, legible, tokens, more, given, lacks => by
      obtain ⟨named, nonempty, inner⟩ := legible
      simp only [TypeExpr.signs, List.cons_append, List.append_assoc, List.nil_append] at given
      obtain ⟨first, rest, rfl, sort, content, behind⟩ := exists_of_sign given
      obtain ⟨opening, opened, _, within⟩ := expect_of_sign behind
      obtain ⟨found, read, same, left⟩ :=
        typeArgs_restores inner nonempty within (by decide) (by decide)
      obtain ⟨closing, closed, _, further⟩ := expect_of_sign left
      simp only [typeExpr, sort, opened, read, closed]
      exact ⟨_, rfl, by simp only [TypeExpr.unplaced, content, same], further⟩
  | .record fields _, legible, tokens, more, given, lacks => by
      simp only [TypeExpr.signs, List.cons_append, List.append_assoc, List.nil_append] at given
      obtain ⟨first, rest, rfl, sort, _, within⟩ := exists_of_sign given
      obtain ⟨found, read, same, left⟩ := recordFields_restores legible within
      simp only [typeExpr, sort, read]
      refine ⟨_, rfl, ?_, left⟩
      simp only [Reading.value_widen, Reading.stamp, Reading.value_map, TypeExpr.unplaced, same]
  | .verbatim _, legible, _, _, _, _ => False.elim legible

theorem typeArgs_restores : ∀ {types : List TypeExpr}, TypesLegible types → types ≠ [] →
    ∀ {tokens : List Token} {more : List (Kind × String)} {kind : Kind} {value : String},
      tokens.map sign = divided (typesSigns types) ++ (kind, value) :: more → kind ≠ .less →
      kind ≠ .comma →
      Restores unplacedTypes (unplacedTypes types) ((kind, value) :: more) (typeArgs tokens)
  | [], _, nonempty, _, _, _, _, _, _, _ => False.elim (nonempty rfl)
  | type :: others, legible, _, tokens, more, kind, value, given, notLess, notComma => by
      obtain ⟨first, later⟩ := legible
      rw [typesSigns, divided_cons, List.append_assoc] at given
      obtain ⟨arg, read, same, left⟩ :=
        typeExpr_restores first given (lacks_behindEntry _ _ _ (by decide) notLess)
      cases others with
      | nil =>
          have alone : expect .comma arg.rest = none := by
            apply expect_of_lacks
            rw [left]
            exact lacks_cons notComma _ _
          rw [typeArgs, read]
          simp only [alone]
          exact ⟨_, rfl, by simp only [Reading.value_map, unplacedTypes, same], left⟩
      | cons second others =>
          obtain ⟨comma, divides, _, behind⟩ := expect_of_sign left
          obtain ⟨found, readOthers, sameOthers, further⟩ :=
            typeArgs_restores later (List.cons_ne_nil _ _) behind notLess notComma
          rw [typeArgs, read]
          simp only [divides, readOthers]
          exact ⟨_, rfl, by simp only [unplacedTypes, same, sameOthers], further⟩

theorem recordFields_restores : ∀ {fields : List Field}, FieldsLegible fields →
    ∀ {tokens : List Token} {more : List (Kind × String)},
      tokens.map sign = divided (fieldsSigns fields) ++ (.rbrace, "\x7d") :: more →
      Restores unplacedFields (unplacedFields fields) more (recordFields tokens)
  | [], legible, tokens, more, given => by
      obtain ⟨first, rest, rfl, sort, _, left⟩ := exists_of_sign given
      have plain := ne_true_of_eq_false (isTrivia_of_kind sort rfl)
      rw [recordFields, if_neg plain]
      simp only [sort]
      exact ⟨_, rfl, rfl, left⟩
  | .mk name type _ :: others, legible, tokens, more, given => by
      obtain ⟨named, inner, later⟩ := legible
      rw [fieldsSigns, divided_cons, List.append_assoc] at given
      obtain ⟨first, rest, rfl, sort, content, behind⟩ := exists_of_sign given
      have plain := ne_true_of_eq_false (isTrivia_of_kind sort rfl)
      obtain ⟨colon, typed, _, within⟩ := expect_of_sign behind
      obtain ⟨found, read, same, left⟩ :=
        typeExpr_restores inner within (lacks_behindEntry _ _ _ (by decide) (by decide))
      have next := map_sign_divider left rfl (by decide)
      obtain ⟨rest, readOthers, sameOthers, further⟩ := recordFields_restores later next
      rw [recordFields, if_neg plain]
      simp only [sort, typed, read, readOthers]
      exact ⟨_, rfl, by simp only [unplacedFields, content, same, sameOthers], further⟩

end

/-! ### What is read is legible -/

def Named (tokens : List Token) : Prop :=
  ∀ token ∈ tokens, token.kind = .identifier → IsName token.value

theorem Named.of_suffix {tokens rest : List Token} (named : Named tokens)
    (ahead : rest <:+ tokens) :
    Named rest :=
  fun token member => named token (ahead.subset member)

theorem Named.head {first : Token} {rest : List Token} (named : Named (first :: rest))
    (name : first.kind = .identifier) : IsName first.value :=
  named first List.mem_cons_self name

theorem Named.tail {first : Token} {rest : List Token} (named : Named (first :: rest)) :
    Named rest :=
  named.of_suffix (List.suffix_cons first rest)

mutual

theorem ReadsType.legible : ∀ {tokens : List Token} {type : TypeExpr} {left : List Token},
    ReadsType tokens type left → Named tokens → type.Legible
  | _, _, _, .record _ inner, named => by
      rw [TypeExpr.Legible]
      exact inner.legible named.tail
  | _, _, _, .unit _ _, _ => by
      rw [TypeExpr.Legible]
      exact Or.inl rfl
  | _, _, _, .named name _, named => by
      rw [TypeExpr.Legible]
      exact Or.inr (named.head name)
  | _, _, _, .generic name _ inner _, named => by
      obtain ⟨nonempty, legible⟩ := inner.legible named.tail.tail
      rw [TypeExpr.Legible]
      exact ⟨named.head name, nonempty, legible⟩

theorem ReadsArgs.legible : ∀ {tokens : List Token} {args : List TypeExpr} {left : List Token},
    ReadsArgs tokens args left → Named tokens → args ≠ [] ∧ TypesLegible args
  | _, _, _, .one type _, named => by
      rw [TypesLegible, TypesLegible]
      exact ⟨List.cons_ne_nil _ _, type.legible named, trivial⟩
  | _, _, _, .more type _ others, named => by
      rw [TypesLegible]
      have later := others.legible (named.of_suffix type.suffix).tail
      exact ⟨List.cons_ne_nil _ _, type.legible named, later.2⟩

theorem ReadsFields.legible : ∀ {tokens : List Token} {fields : List Field} {left : List Token},
    ReadsFields tokens fields left → Named tokens → FieldsLegible fields
  | _, _, _, .ended _, _ => by
      rw [FieldsLegible]
      trivial
  | _, _, _, .blank _ others, named => others.legible named.tail
  | _, _, _, .closed _, _ => by
      rw [FieldsLegible]
      trivial
  | _, _, _, .elided _ _ _, _ => by
      rw [FieldsLegible]
      trivial
  | _, _, _, .field _ name _ inner others, named => by
      have behind := (divider_suffix _).trans inner.suffix
      rw [FieldsLegible]
      exact ⟨named.head name, inner.legible named.tail.tail,
        others.legible (named.tail.tail.of_suffix behind)⟩

end

end Grammar

end SageNotation
