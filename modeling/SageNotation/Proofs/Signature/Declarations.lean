import SageNotation.Proofs.Cut.Documents
import SageNotation.Proofs.Signature.Types

/-!
Declarations read back from their headers.

A signature shows the header of a declaration, and `Declaration.header` is the
declaration with nothing else.  Where names and types are legible, the signature
is cut into known signs, and these are read to the end as one declaration with
that header.
-/

namespace SageNotation

open Token

/-! ### Headers -/

namespace Callable

def header (callable : Callable) : Callable :=
  { callable with description := none, contracts := [], body := [] }

end Callable

namespace Declaration

/-- The declaration without what its signature leaves out.  An implementation has
no signature and stays as it is. -/
def header : Declaration → Declaration
  | module decl => module { decl with description := none }
  | type decl => type decl
  | function decl => function decl.header
  | spec decl =>
      spec { decl with description := none, properties := [], state := [], invariants := [] }
  | operation decl => operation decl.header
  | refinement decl =>
      refinement
        { decl with
          description := none
          decisions := []
          state := []
          preserves := []
          maps := []
          comparison := none }
  | implementation decl => implementation decl

end Declaration

/-! ### Legible declarations -/

structure Param.Legible (param : Param) : Prop where
  named : IsName param.name
  typed : ∀ type ∈ param.type, type.Legible

structure Callable.Legible (callable : Callable) : Prop where
  named : IsName callable.name
  params : ∀ param ∈ callable.params, param.Legible
  returns : ∀ type ∈ callable.returnType, type.Legible

/-- A refinement has a tag only where it has a child. -/
structure Refinement.Legible (decl : Refinement) : Prop where
  parent : IsName decl.parent
  child : ∀ child ∈ decl.child, IsName child
  tag : ∀ tag ∈ decl.tag, IsName tag
  tagged : decl.child = none → decl.tag = none

def Declaration.Legible : Declaration → Prop
  | module decl => IsName decl.name
  | type decl => IsName decl.name ∧ FieldsLegible decl.fields
  | function decl => decl.Legible
  | spec decl => IsName decl.name
  | operation decl => decl.Legible
  | refinement decl => decl.Legible
  | implementation _ => True

/-- What a declaration introduces is a name, and it is shown by a signature. -/
theorem Declaration.Legible.introduced {decl : Declaration} {name : String} (legible : decl.Legible)
    (introduces : decl.introduces? = some name) :
    IsName name ∧ ∃ signature, decl.signature? = some signature := by
  cases decl with
  | module | spec =>
      cases introduces
      exact ⟨legible, _, rfl⟩
  | type =>
      cases introduces
      exact ⟨legible.1, _, rfl⟩
  | function | operation =>
      cases introduces
      exact ⟨legible.named, _, rfl⟩
  | refinement => exact ⟨legible.child name introduces, _, rfl⟩
  | implementation => cases introduces

/-! ### Signs of headers -/

def typedSigns (mark : Kind × String) : Option TypeExpr → List (Kind × String)
  | none => []
  | some type => mark :: type.signs

def Param.signs (param : Param) : List (Kind × String) :=
  (.identifier, param.name) :: typedSigns (.colon, ":") param.type

def Callable.signs (callable : Callable) : List (Kind × String) :=
  (.identifier, callable.name) :: (.lparen, "(") :: (divided (callable.params.map Param.signs) ++
    (.rparen, ")") :: typedSigns (.arrow, "->") callable.returnType)

def tagSigns : Option String → List (Kind × String)
  | none => []
  | some tag => [(.lbracket, "["), (.identifier, tag), (.rbracket, "]")]

def Refinement.signs (decl : Refinement) : List (Kind × String) :=
  (.identifier, decl.parent) ::
    match decl.child with
    | none => []
    | some child => (.plain .asWord, "as") :: (.identifier, child) :: tagSigns decl.tag

def Declaration.signs : Declaration → List (Kind × String)
  | module decl => [(.declare .mod, "@mod"), (.identifier, decl.name)]
  | type decl =>
      (.declare .type, "@type") :: (.identifier, decl.name) :: (.assign, "=") ::
        (.lbrace, "\x7b") :: (divided (fieldsSigns decl.fields) ++ [(.rbrace, "\x7d")])
  | function decl => (.declare .fn, "@fn") :: decl.signs
  | spec decl => [(.declare .spec, "@spec"), (.identifier, decl.name)]
  | operation decl => (.declare .op, "@op") :: decl.signs
  | refinement decl => (.declare .refine, "@refine") :: decl.signs
  | implementation _ => []

/-! ### Text of headers -/

namespace Punctuates

theorem keyword (letters : List Char) (run : letters.all isWordChar = true) :
    Punctuates ('@' :: (letters ++ [' ']))
      [(Kind.ofAtWord (String.ofList ('@' :: letters)), String.ofList ('@' :: letters))] := by
  have each : ∀ letter ∈ letters, isWordChar letter = true := List.all_eq_true.mp run
  have word : WordOf (Kind.ofAtWord (String.ofList ('@' :: letters))) '@' letters := by
    refine ⟨each, Or.inl ⟨rfl, ?_⟩⟩
    rw [takeWhile_letters each]
  have stops : ∀ rest, EndsWord (' ' :: rest) := by
    intro rest next member
    cases member
    rfl
  constructor
  · intro rest
    exact detached_cons rfl (by decide)
  · intro rest
    have cut := word.signs_eq (stops rest)
    rw [signs_space] at cut
    rw [List.cons_append, List.append_assoc]
    exact cut

theorem asWord : Punctuates " as ".toList [(.plain .asWord, "as")] := by
  have word : WordOf (.plain .asWord) 'a' ['s'] :=
    ⟨List.forall_mem_singleton.mpr (by decide), Or.inr ⟨rfl, by decide⟩⟩
  constructor
  · intro rest
    exact detached_cons rfl (by decide)
  · intro rest
    have stops : EndsWord (' ' :: rest) := by
      intro next member
      cases member
      rfl
    have cut := word.signs_eq stops
    rw [signs_space] at cut
    change Token.signs (' ' :: ('a' :: ['s'] ++ ' ' :: rest)) = _
    rw [signs_space, cut]
    rfl

theorem arrow : Punctuates " -> ".toList [(.arrow, "->")] := by
  constructor
  · intro rest
    exact detached_cons rfl (by decide)
  · intro rest
    change Token.signs (' ' :: '-' :: '>' :: ' ' :: rest) = _
    rw [signs_space, signs_arrow, signs_space]
    rfl

theorem assignBrace : Punctuates " = \x7b ".toList [(.assign, "="), (.lbrace, "\x7b")] := by
  constructor
  · intro rest
    exact detached_cons rfl (by decide)
  · intro rest
    change Token.signs (' ' :: '=' :: ' ' :: ("\x7b ".toList ++ rest)) = _
    rw [signs_space, signs_assign, openBrace.cut]
    rfl

theorem openParen : Punctuates "(".toList [(.lparen, "(")] :=
  mark (by decide)

theorem closeParen : Punctuates ")".toList [(.rparen, ")")] :=
  mark (by decide)

theorem openBracket : Punctuates " [".toList [(.lbracket, "[")] :=
  blank.append (mark (by decide))

theorem closeBracket : Punctuates "]".toList [(.rbracket, "]")] :=
  mark (by decide)

end Punctuates

theorem isShown_of_legible {type : TypeExpr} (legible : type.Legible) : type.isShown = true := by
  cases type with
  | named | generic | record => rfl
  | verbatim text =>
      rw [TypeExpr.Legible] at legible
      cases legible

theorem Param.Legible.writes {param : Param} (legible : param.Legible) :
    Writes param.format param.signs := by
  have name := Writes.of_name legible.named
  rw [Param.format, Param.signs]
  cases known : param.type with
  | none => exact name
  | some type =>
      have inner := legible.typed type known
      simp only [isShown_of_legible inner, if_true]
      exact name.join .colon inner.writes

theorem Callable.Legible.writes {callable : Callable} (legible : callable.Legible) {word : String}
    {kind : Kind} (opens : Punctuates (word ++ " ").toList [(kind, word)]) :
    Writes (callable.signature word) ((kind, word) :: callable.signs) := by
  have params : List.Forall₂ Writes (callable.params.map Param.format)
      (callable.params.map Param.signs) := by
    rw [List.forall₂_map_left_iff, List.forall₂_map_right_iff, List.forall₂_same]
    intro param member
    exact (legible.params param member).writes
  have head := ((Writes.opened opens (.of_name legible.named)).join .openParen
    (writes_divided params)).closed .closeParen
  simp only [List.cons_append, List.nil_append] at head
  rw [Callable.signature, Callable.signs]
  cases known : callable.returnType with
  | none =>
      simp only [String.append_empty]
      exact head
  | some type =>
      have inner := legible.returns type known
      have whole := head.join .arrow inner.writes
      simp only [List.cons_append, List.nil_append, List.append_assoc] at whole
      simp only [isShown_of_legible inner, if_true]
      rw [← String.append_assoc]
      exact whole

theorem writes_head {opening name : String} {word : Kind × String}
    (opens : Punctuates opening.toList [word]) (named : IsName name) :
    Writes (opening ++ name) [word, (.identifier, name)] :=
  .opened opens (.of_name named)

theorem Refinement.Legible.writes {decl : Refinement} (legible : decl.Legible) :
    Writes decl.signature ((.declare .refine, "@refine") :: decl.signs) := by
  have head : Writes ("@refine " ++ decl.parent)
      [(.declare .refine, "@refine"), (.identifier, decl.parent)] :=
    writes_head (.keyword "refine".toList (by decide)) legible.parent
  have empty : "".isEmpty = true := rfl
  rw [Refinement.signature, Refinement.signs]
  cases known : decl.child with
  | none =>
      rw [legible.tagged known]
      simp only [Option.getD_none, empty, if_true, String.append_empty]
      exact head
  | some child =>
      have named := legible.child child known
      have body := head.join .asWord (.of_name named)
      simp only [Option.getD_some, named.not_isEmpty, Bool.false_eq_true, if_false]
      rw [← String.append_assoc]
      cases tagged : decl.tag with
      | none =>
          simp only [Option.getD_none, empty, if_true, String.append_empty]
          exact body
      | some tag =>
          have marked := legible.tag tag tagged
          have whole := (body.join .openBracket (.of_name marked)).closed .closeBracket
          simp only [Option.getD_some, marked.not_isEmpty, Bool.false_eq_true, if_false]
          rw [← String.append_assoc, ← String.append_assoc]
          exact whole

theorem Declaration.Legible.writes {decl : Declaration} (legible : decl.Legible) {text : String}
    (shown : decl.signature? = some text) : Writes text decl.signs := by
  cases decl with
  | module decl =>
      cases shown
      exact writes_head (.keyword "mod".toList (by decide)) legible
  | type decl =>
      obtain ⟨named, fields⟩ := legible
      have head : Writes ("@type " ++ decl.name)
          [(.declare .type, "@type"), (.identifier, decl.name)] :=
        writes_head (.keyword "type".toList (by decide)) named
      have inner := writes_divided (fields_write fields)
      have whole := (head.join .assignBrace inner).closed .closeBrace
      cases shown
      simp only [List.cons_append, List.nil_append] at whole
      exact whole
  | function decl =>
      cases shown
      exact Callable.Legible.writes legible (.keyword "fn".toList (by decide))
  | spec decl =>
      cases shown
      exact writes_head (.keyword "spec".toList (by decide)) legible
  | operation decl =>
      cases shown
      exact Callable.Legible.writes legible (.keyword "op".toList (by decide))
  | refinement decl =>
      cases shown
      exact Refinement.Legible.writes legible
  | implementation decl => cases shown

/-! ### Reading the signs -/

namespace Grammar

variable {tokens : List Token} {more : List (Kind × String)}

theorem typeAfter_restores {mark : Kind} {value : String} {type : Option TypeExpr}
    (legible : ∀ inner ∈ type, inner.Legible)
    (given : tokens.map sign = typedSigns (mark, value) type ++ more) (notLess : Lacks .less more)
    (notMark : Lacks mark more) :
    Restores (Option.map TypeExpr.unplaced) (type.map TypeExpr.unplaced) more
      (typeAfter mark tokens) := by
  cases type with
  | none =>
      have given : tokens.map sign = more := given
      have missing : expect mark tokens = none := by
        apply expect_of_lacks
        rw [given]
        exact notMark
      simp only [typeAfter, missing]
      exact ⟨_, rfl, rfl, given⟩
  | some inner =>
      obtain ⟨taken, found, _, behind⟩ := expect_of_sign given
      obtain ⟨reading, read, same, left⟩ := typeExpr_restores (legible inner rfl) behind notLess
      simp only [typeAfter, found, read]
      refine ⟨_, rfl, ?_, left⟩
      rw [Reading.value_widen, Reading.value_map, Option.map_some, Option.map_some, same]

theorem params_restores {wanted : List Param} (legible : ∀ param ∈ wanted, param.Legible)
    (given : tokens.map sign = divided (wanted.map Param.signs) ++ (.rparen, ")") :: more) :
    Restores (List.map Param.unplaced) (wanted.map Param.unplaced) more (params tokens) := by
  induction wanted generalizing tokens with
  | nil =>
      obtain ⟨first, rest, rfl, sort, _, left⟩ := exists_of_sign given
      have plain := ne_true_of_eq_false (isTrivia_of_kind sort rfl)
      rw [params, if_neg plain, if_pos sort]
      exact ⟨_, rfl, rfl, left⟩
  | cons param others ih =>
      have here := legible param List.mem_cons_self
      rw [List.map_cons, divided_cons, List.append_assoc] at given
      obtain ⟨first, rest, rfl, sort, content, behind⟩ := exists_of_sign given
      have plain := ne_true_of_eq_false (isTrivia_of_kind sort rfl)
      have unclosed : ¬ first.kind = .rparen := by
        rw [sort]
        decide
      obtain ⟨type, read, same, left⟩ := typeAfter_restores here.typed behind
        (lacks_behindEntry _ _ _ (by decide) (by decide))
        (lacks_behindEntry _ _ _ (by decide) (by decide))
      -- The comma behind a parameter is gone when the next one is read.
      have next := map_sign_divider left rfl (by decide)
      obtain ⟨found, readOthers, sameOthers, further⟩ :=
        ih (fun other member => legible other (List.mem_cons_of_mem param member)) next
      rw [params, if_neg plain, if_neg unclosed, if_pos sort]
      simp only [read, readOthers]
      refine ⟨_, rfl, ?_, further⟩
      rw [List.map_cons, List.map_cons, sameOthers, Param.unplaced, Param.unplaced, same, content]

theorem eq_nil_of_sign (given : tokens.map sign = []) : tokens = [] :=
  List.map_eq_nil_iff.mp given

/-! Behind the header nothing is left to read. -/

theorem description_nil (empty : tokens = []) :
    (Reading.description tokens).value = none ∧ (Reading.description tokens).rest = [] := by
  subst empty
  exact ⟨rfl, rfl⟩

theorem contracts_nil (empty : tokens = []) :
    (contracts tokens).value = [] ∧ (contracts tokens).rest = [] := by
  subst empty
  rw [contracts]
  exact ⟨rfl, rfl⟩

theorem body_nil (empty : tokens = []) :
    (body tokens).value = ([], []) ∧ (body tokens).rest = [] := by
  subst empty
  rw [body]
  exact ⟨rfl, rfl⟩

theorem clauses_nil {γ : Type}
    (form : List γ → Token → (tokens : List Token) → Attempt (Span → γ) tokens)
    (empty : tokens = []) :
    (clauses form [] tokens).value = ([], []) ∧ (clauses form [] tokens).rest = [] := by
  subst empty
  rw [clauses]
  exact ⟨rfl, rfl⟩

/-- The construct is read to the end of the tokens, as this node whatever its span. -/
def ReadsWhole {α β : Type} (view : α → Span → β) (wanted : β)
    (result : Option (Reading α tokens)) : Prop :=
  ∃ reading, result = some reading ∧ (∀ span, view reading.value span = wanted) ∧ reading.rest = []

theorem callable_restores {wanted : Callable} (legible : wanted.Legible)
    (given : tokens.map sign = wanted.signs) :
    ReadsWhole (fun result span => (result.1 span).unplaced) wanted.header.unplaced
      (callable tokens) := by
  rw [Callable.signs] at given
  obtain ⟨name, nameFound, content, behind⟩ := expect_of_sign given
  obtain ⟨opening, opened, _, within⟩ := expect_of_sign behind
  obtain ⟨found, read, sameParams, left⟩ := params_restores legible.params within
  have listed : paramList name.rest = some (found.widen opening.suffix) := by
    simp only [paramList, opened, read, Option.map_some]
  rw [← List.append_nil (typedSigns _ _)] at left
  obtain ⟨result, returned, sameResult, further⟩ :=
    typeAfter_restores legible.returns left (lacks_nil _) (lacks_nil _)
  obtain ⟨noText, textEnd⟩ := description_nil (eq_nil_of_sign further)
  obtain ⟨noTerms, termsEnd⟩ := contracts_nil textEnd
  obtain ⟨noStatements, stop⟩ := body_nil termsEnd
  simp only [callable, nameFound, listed, Reading.rest_widen, returned]
  refine ⟨_, rfl, ?_, stop⟩
  intro span
  simp only [Callable.unplaced, Callable.header, Reading.value_widen, content, sameParams, sameResult,
    noText, noTerms, noStatements, List.map_nil]

theorem moduleDecl_restores {wanted : ModuleDecl}
    (given : tokens.map sign = [(.identifier, wanted.name)]) :
    ReadsWhole (fun make span => (make span).unplaced) (Declaration.module wanted).header.unplaced
      (moduleDecl tokens) := by
  obtain ⟨name, found, content, left⟩ := expect_of_sign given
  obtain ⟨noText, stop⟩ := description_nil (eq_nil_of_sign left)
  simp only [moduleDecl, found]
  refine ⟨_, rfl, ?_, stop⟩
  intro span
  simp only [Declaration.unplaced, Declaration.header, content, noText]

theorem typeDecl_restores {wanted : TypeDecl} (legible : FieldsLegible wanted.fields)
    (given : tokens.map sign = (.identifier, wanted.name) :: (.assign, "=") :: (.lbrace, "\x7b") ::
      (divided (fieldsSigns wanted.fields) ++ [(.rbrace, "\x7d")])) :
    ReadsWhole (fun make span => (make span).unplaced) (Declaration.type wanted).header.unplaced
      (typeDecl tokens) := by
  obtain ⟨name, nameFound, content, behind⟩ := expect_of_sign given
  obtain ⟨assign, assigned, _, next⟩ := expect_of_sign behind
  obtain ⟨opening, opened, _, within⟩ := expect_of_sign next
  obtain ⟨fields, read, same, left⟩ := recordFields_restores legible within
  simp only [typeDecl, nameFound, assigned, opened, read]
  refine ⟨_, rfl, ?_, eq_nil_of_sign left⟩
  intro span
  simp only [Declaration.unplaced, Declaration.header, content, same]

theorem specDecl_restores {wanted : SpecDecl}
    (given : tokens.map sign = [(.identifier, wanted.name)]) :
    ReadsWhole (fun result span => (result.1 span).unplaced)
      (Declaration.spec wanted).header.unplaced (specDecl tokens) := by
  obtain ⟨name, found, content, left⟩ := expect_of_sign given
  obtain ⟨noText, textEnd⟩ := description_nil (eq_nil_of_sign left)
  obtain ⟨noClauses, stop⟩ := clauses_nil specClause textEnd
  simp only [specDecl, found]
  refine ⟨_, rfl, ?_, stop⟩
  intro span
  simp only [Declaration.unplaced, Declaration.header, content, noText, noClauses,
    List.filterMap_nil, List.flatMap_nil, List.map_nil]

theorem tagName_restores {tag : Option String} (given : tokens.map sign = tagSigns tag) :
    Restores id tag [] (tagName tokens) := by
  cases tag with
  | none =>
      have missing : expect .lbracket tokens = none := by
        apply expect_of_lacks
        rw [given]
        exact lacks_nil _
      simp only [tagName, missing]
      exact ⟨_, rfl, rfl, given⟩
  | some tag =>
      obtain ⟨opening, opened, _, behind⟩ := expect_of_sign given
      obtain ⟨name, found, content, next⟩ := expect_of_sign behind
      obtain ⟨closing, closed, _, left⟩ := expect_of_sign next
      simp only [tagName, opened, found, closed]
      exact ⟨_, rfl, congrArg some content, left⟩

theorem refinement_restores {wanted : Refinement} (legible : wanted.Legible)
    (given : tokens.map sign = wanted.signs) :
    ReadsWhole (fun result span => (result.1 span).unplaced)
      (Declaration.refinement wanted).header.unplaced (refinement tokens) := by
  rw [Refinement.signs] at given
  obtain ⟨parent, found, content, behind⟩ := expect_of_sign given
  have named : Restores id ⟨wanted.child, wanted.tag⟩ [] (refinementName parent.rest) := by
    cases known : wanted.child with
    | none =>
        rw [known] at behind
        have missing : expect (.plain .asWord) parent.rest = none := by
          apply expect_of_lacks
          rw [behind]
          exact lacks_nil _
        rw [legible.tagged known]
        simp only [refinementName, missing]
        exact ⟨_, rfl, rfl, behind⟩
    | some child =>
        rw [known] at behind
        obtain ⟨word, wordFound, _, next⟩ := expect_of_sign behind
        obtain ⟨name, nameFound, same, further⟩ := expect_of_sign next
        obtain ⟨tag, read, sameTag, left⟩ := tagName_restores further
        simp only [refinementName, wordFound, nameFound, read]
        refine ⟨_, rfl, ?_, left⟩
        rw [id_eq] at sameTag
        rw [id_eq, same, sameTag]
  obtain ⟨name, read, same, left⟩ := named
  rw [id_eq] at same
  obtain ⟨noClauses, stop⟩ := clauses_nil refinementClause (eq_nil_of_sign left)
  simp only [refinement, found, read]
  refine ⟨_, rfl, ?_, stop⟩
  intro span
  simp only [Declaration.unplaced, Declaration.header, content, same, noClauses,
    List.findSome?_nil, List.filterMap_nil, List.flatMap_nil, List.getLast?_nil, List.map_nil,
    Option.map_none]

theorem ReadsWhole.map {α β γ δ : Type} {view : α → Span → β} {other : γ → Span → δ}
    {result : Option (Reading α tokens)} {wanted : β} {change : α → γ} (same : β → δ)
    (whole : ReadsWhole view wanted result)
    (agrees : ∀ value span, other (change value) span = same (view value span)) :
    ReadsWhole other (same wanted) (result.map (Reading.map change)) := by
  obtain ⟨reading, rfl, like, stop⟩ := whole
  refine ⟨_, rfl, ?_, stop⟩
  intro span
  rw [Reading.value_map, agrees, like]

theorem items_of_declaration {first : Token} {rest : List Token} {word : DeclareWord}
    {wanted : Declaration} {result : Option (Reading ((Span → Declaration) × List Recovery) rest)}
    (sort : first.kind = .declare word) (form : declarationForm word rest = asDeclaration result)
    (whole : ReadsWhole (fun result span => (result.1 span).unplaced) wanted result) :
    (items (first :: rest)).value.1.map Item.unplaced = [.declaration wanted] := by
  obtain ⟨reading, rfl, like, stop⟩ := whole
  have plain := ne_true_of_eq_false (isTrivia_of_kind sort rfl)
  have formed : itemForm first rest = asDeclaration (some reading) := by
    simp only [itemForm, sort, form]
  have read : item first rest =
      ⟨(.declaration (reading.value.1 (first.through rest reading.rest)), reading.value.2),
        reading.rest, reading.suffix⟩ := by
    rw [item, formed]
    rfl
  have unmarked : first.kind ≠ .eof := fun mark => by cases sort.symm.trans mark
  have done : (items reading.rest).value.1 = [] := by
    rw [stop, items]
    rfl
  rw [(items_plain plain unmarked rest).1, read, done]
  simp only [List.map_cons, Item.unplaced, like, List.map_nil]

/-- Tokens with the signs of a header are one declaration with that header. -/
theorem items_restore {decl : Declaration} (legible : decl.Legible) (shown : decl.signature? ≠ none)
    (given : tokens.map sign = decl.signs) :
    (items tokens).value.1.map Item.unplaced = [.declaration decl.header.unplaced] := by
  cases decl with
  | module decl =>
      obtain ⟨first, rest, rfl, sort, _, behind⟩ := exists_of_sign given
      exact items_of_declaration sort rfl ((moduleDecl_restores behind).map id fun _ _ => rfl)
  | type decl =>
      obtain ⟨first, rest, rfl, sort, _, behind⟩ := exists_of_sign given
      exact items_of_declaration sort rfl
        ((typeDecl_restores legible.2 behind).map id fun _ _ => rfl)
  | function decl =>
      obtain ⟨first, rest, rfl, sort, _, behind⟩ := exists_of_sign given
      exact items_of_declaration sort rfl
        ((callable_restores legible behind).map Declaration.function fun _ _ => rfl)
  | spec decl =>
      obtain ⟨first, rest, rfl, sort, _, behind⟩ := exists_of_sign given
      exact items_of_declaration sort rfl (specDecl_restores behind)
  | operation decl =>
      obtain ⟨first, rest, rfl, sort, _, behind⟩ := exists_of_sign given
      exact items_of_declaration sort rfl
        ((callable_restores legible behind).map Declaration.operation fun _ _ => rfl)
  | refinement decl =>
      obtain ⟨first, rest, rfl, sort, _, behind⟩ := exists_of_sign given
      exact items_of_declaration sort rfl (refinement_restores legible behind)
  | implementation decl => exact False.elim (shown rfl)

end Grammar

end SageNotation
