import SageNotation.Proofs.Grammar.Progress
import SageNotation.Proofs.Signature.Declarations

/-!
Documents and the signatures of their declarations.

The identifiers among the tokens of a text are spelled as names, so what is read
from a text is legible.  Every declaration of a document but an implementation
therefore has a signature, and this is read back as the header of the declaration.
-/

namespace SageNotation

open Token

namespace Grammar

variable {tokens : List Token}

/-! ### What is read is legible -/

theorem Named.of_expect {taken : Taken tokens} (named : Named tokens)
    (found : expect .identifier tokens = some taken) :
    IsName taken.token.value ∧ Named taken.rest := by
  have name := kind_of_expect found
  rw [taken.split] at named
  exact ⟨named.head name, named.tail⟩

theorem typeExpr_legible {reading : Reading TypeExpr tokens} (named : Named tokens)
    (read : typeExpr tokens = some reading) : reading.value.Legible :=
  (readsTypes.1 tokens reading read).legible named

theorem typeAfter_legible {mark : Kind} {reading : Reading (Option TypeExpr) tokens}
    (named : Named tokens) (read : typeAfter mark tokens = some reading) :
    ∀ type ∈ reading.value, type.Legible := by
  intro type member
  unfold typeAfter at read
  split at read
  · cases read
    cases member
  · rename_i taken _
    split at read
    · cases read
    · rename_i inner found
      cases read
      cases member
      exact typeExpr_legible (named.of_suffix taken.suffix) found

theorem params_legible {reading : Reading (List Param) tokens} (named : Named tokens)
    (read : params tokens = some reading) : ∀ param ∈ reading.value, param.Legible := by
  induction tokens using params.induct with
  | case1 =>
      rw [params] at read
      cases read
  | case2 first rest trivia ih =>
      rw [params, if_pos trivia] at read
      obtain ⟨inner, found, same⟩ := Option.map_eq_some_iff.mp read
      subst same
      exact ih named.tail found
  | case3 first rest plain closing =>
      rw [params, if_neg plain, if_pos closing] at read
      cases read
      intro param member
      cases member
  | case4 first rest plain open_ name missing =>
      rw [params, if_neg plain, if_neg open_, if_pos name, missing] at read
      cases read
  | case5 first rest plain open_ name type found missing ih =>
      rw [params, if_neg plain, if_neg open_, if_pos name, found] at read
      simp only [missing, reduceCtorEq] at read
  | case6 first rest plain open_ name type found others othersFound ih =>
      rw [params, if_neg plain, if_neg open_, if_pos name, found] at read
      simp only [othersFound] at read
      cases read
      have behind := (divider_suffix type.rest).trans type.suffix
      intro param member
      rcases List.mem_cons.mp member with rfl | later
      · exact ⟨named.head name, typeAfter_legible named.tail found⟩
      · exact ih (named.tail.of_suffix behind) othersFound param later
  | case7 first rest plain open_ other =>
      rw [params, if_neg plain, if_neg open_, if_neg other] at read
      cases read

theorem paramList_legible {reading : Reading (List Param) tokens} (named : Named tokens)
    (read : paramList tokens = some reading) : ∀ param ∈ reading.value, param.Legible := by
  unfold paramList at read
  split at read
  · cases read
    intro param member
    cases member
  · rename_i opening _
    obtain ⟨inner, found, same⟩ := Option.map_eq_some_iff.mp read
    subst same
    have each := params_legible (named.of_suffix opening.suffix) found
    exact each

theorem callable_legible {reading : Reading ((Span → Callable) × List Recovery) tokens}
    (named : Named tokens) (read : callable tokens = some reading) (span : Span) :
    (reading.value.1 span).Legible := by
  unfold callable at read
  split at read
  · cases read
  · rename_i name nameFound
    obtain ⟨here, behind⟩ := named.of_expect nameFound
    split at read
    · cases read
    · rename_i params paramsFound
      split at read
      · cases read
      · rename_i result resultFound
        cases read
        exact ⟨here, paramList_legible behind paramsFound,
          typeAfter_legible (behind.of_suffix params.suffix) resultFound⟩

theorem moduleDecl_legible {reading : Reading (Span → Declaration) tokens} (named : Named tokens)
    (read : moduleDecl tokens = some reading) (span : Span) : (reading.value span).Legible := by
  unfold moduleDecl at read
  split at read
  · cases read
  · rename_i name found
    cases read
    exact (named.of_expect found).1

theorem typeDecl_legible {reading : Reading (Span → Declaration) tokens} (named : Named tokens)
    (read : typeDecl tokens = some reading) (span : Span) : (reading.value span).Legible := by
  unfold typeDecl at read
  split at read
  · cases read
  · rename_i name nameFound
    obtain ⟨here, behind⟩ := named.of_expect nameFound
    split at read
    · cases read
    · rename_i assign _
      split at read
      · cases read
      · rename_i opening _
        split at read
        · cases read
        · rename_i fields found
          cases read
          have within := behind.of_suffix (opening.suffix.trans assign.suffix)
          exact ⟨here, (readsTypes.2.2 _ fields found).legible within⟩

theorem specDecl_legible {reading : Reading ((Span → Declaration) × List Recovery) tokens}
    (named : Named tokens) (read : specDecl tokens = some reading) (span : Span) :
    (reading.value.1 span).Legible := by
  unfold specDecl at read
  split at read
  · cases read
  · rename_i name found
    cases read
    exact (named.of_expect found).1

theorem tagName_legible {reading : Reading (Option String) tokens} (named : Named tokens)
    (read : tagName tokens = some reading) : ∀ tag ∈ reading.value, IsName tag := by
  intro tag member
  unfold tagName at read
  split at read
  · cases read
    cases member
  · rename_i opening _
    split at read
    · cases read
    · rename_i name found
      split at read
      · cases read
      · cases read
        cases member
        exact ((named.of_suffix opening.suffix).of_expect found).1

theorem refinementName_legible {reading : Reading RefinementName tokens} (named : Named tokens)
    (read : refinementName tokens = some reading) :
    (∀ child ∈ reading.value.child, IsName child) ∧ (∀ tag ∈ reading.value.tag, IsName tag) ∧
      (reading.value.child = none → reading.value.tag = none) := by
  unfold refinementName at read
  split at read
  · cases read
    refine ⟨?_, ?_, fun _ => rfl⟩
    · intro child member
      cases member
    · intro tag member
      cases member
  · rename_i word _
    split at read
    · cases read
    · rename_i child childFound
      obtain ⟨childNamed, behind⟩ := (named.of_suffix word.suffix).of_expect childFound
      split at read
      · cases read
      · rename_i tag tagFound
        cases read
        refine ⟨?_, tagName_legible behind tagFound, fun missing => by cases missing⟩
        intro name member
        cases member
        exact childNamed

theorem refinement_legible {reading : Reading ((Span → Declaration) × List Recovery) tokens}
    (named : Named tokens) (read : refinement tokens = some reading) (span : Span) :
    (reading.value.1 span).Legible := by
  unfold refinement at read
  split at read
  · cases read
  · rename_i parent parentFound
    obtain ⟨here, behind⟩ := named.of_expect parentFound
    split at read
    · cases read
    · rename_i name nameFound
      cases read
      obtain ⟨child, tag, tagged⟩ := refinementName_legible behind nameFound
      exact ⟨here, child, tag, tagged⟩

theorem asDeclaration_legible
    {result : Option (Reading ((Span → Declaration) × List Recovery) tokens)}
    {reading : Reading ((Span → Item) × List Recovery) tokens} {decl : Declaration} {span : Span}
    (read : asDeclaration result = .read reading) (same : reading.value.1 span = .declaration decl)
    (each : ∀ inner, result = some inner → ∀ place, (inner.value.1 place).Legible) :
    decl.Legible := by
  obtain ⟨inner, found, changed⟩ := Attempt.exists_of_map read
  rw [← changed] at same
  have legible := each inner (Attempt.eq_some_of_ofOption found) span
  rw [Item.declaration.inj same] at legible
  exact legible

theorem declarationForm_legible {word : DeclareWord}
    {reading : Reading ((Span → Item) × List Recovery) tokens} {decl : Declaration} {span : Span}
    (named : Named tokens) (read : declarationForm word tokens = .read reading)
    (same : reading.value.1 span = .declaration decl) : decl.Legible := by
  cases word with
  | mod =>
      apply asDeclaration_legible read same
      intro inner found place
      obtain ⟨bare, bareFound, rfl⟩ := Option.map_eq_some_iff.mp found
      exact moduleDecl_legible named bareFound place
  | type =>
      apply asDeclaration_legible read same
      intro inner found place
      obtain ⟨bare, bareFound, rfl⟩ := Option.map_eq_some_iff.mp found
      exact typeDecl_legible named bareFound place
  | fn =>
      apply asDeclaration_legible read same
      intro inner found place
      obtain ⟨bare, bareFound, rfl⟩ := Option.map_eq_some_iff.mp found
      exact callable_legible named bareFound place
  | spec =>
      apply asDeclaration_legible read same
      intro inner found place
      exact specDecl_legible named found place
  | op =>
      apply asDeclaration_legible read same
      intro inner found place
      obtain ⟨bare, bareFound, rfl⟩ := Option.map_eq_some_iff.mp found
      exact callable_legible named bareFound place
  | refine =>
      apply asDeclaration_legible read same
      intro inner found place
      exact refinement_legible named found place
  | impl =>
      apply asDeclaration_legible read same
      intro inner found place
      cases found
      trivial

theorem item_legible {first : Token} {rest : List Token} {decl : Declaration} (named : Named rest)
    (same : (item first rest).value.1 = .declaration decl) : decl.Legible := by
  unfold item at same
  split at same
  · rename_i reading read
    unfold itemForm at read
    split at read
    · exact declarationForm_legible named read same
    · cases read
      cases same
    · cases read
      cases same
    · obtain ⟨inner, _, changed⟩ := Attempt.exists_of_map read
      rw [← changed] at same
      cases same
  · cases same
  · cases same

/-! ### Documents -/

theorem named_tokenize (source file : String) : Named (beforeEnd (tokenize source file)) :=
  fun _ member name => isName_of_mem_tokenize (mem_beforeEnd.mp member).1 name

theorem legible_of_mem_parse {source file : String} {decl : Declaration}
    (member : .declaration decl ∈ (Document.parse source file).body) : decl.Legible := by
  obtain ⟨first, rest, ahead, _, read⟩ := exists_of_mem_parse member
  exact item_legible ((named_tokenize source file).of_suffix ahead).tail read

theorem map_sign_beforeEnd {source : String} {written : List (Kind × String)}
    (cut : signs source.toList = written ++ [(.eof, "")]) (file : String) :
    (beforeEnd (tokenize source file)).map sign = written := by
  have here : (tokenize source file).map sign = written ++ [(.eof, "")] := by
    rw [tokenize, map_sign_scan, cut]
  rw [tokenize_eq, List.map_append] at here
  exact List.append_inj_left' here rfl

/-- Every declaration but an implementation has a signature, and this is read back
as the declaration it shows: one item of the same class with the same header, and
with nothing but the header. -/
theorem parse_signature {source file : String} {decl : Declaration}
    (member : .declaration decl ∈ (Document.parse source file).body)
    (headed : decl.kind ≠ .implementation) :
    ∃ text, decl.signature? = some text ∧ ∀ name, (Document.parse text name).body.map Item.unplaced =
      [.declaration decl.header.unplaced] := by
  have legible := legible_of_mem_parse member
  obtain ⟨text, shown⟩ : ∃ text, decl.signature? = some text := by
    cases decl with
    | implementation => exact False.elim (headed rfl)
    | module | type | function | spec | operation | refinement => exact ⟨_, rfl⟩
  have written := (legible.writes shown).reads [] detached_nil
  rw [List.append_nil, signs_nil] at written
  refine ⟨text, shown, ?_⟩
  intro name
  rw [body_parse]
  apply items_restore legible
  · rw [shown]
    exact Option.some_ne_none text
  · exact map_sign_beforeEnd written name

def lookupSource : String :=
  "@op find(table: Map<Key, \x7b at: (), many: List<Row> \x7d>,\n  key) -> Row \"looks\" @req key > 0"

def lookupSignature : String :=
  "@op find(table: Map<Key, \x7b at: (), many: List<Row> \x7d>, key) -> Row"

theorem parse_signature_of_lookup :
    ∃ decl, .declaration decl ∈ (Document.parse lookupSource "table.sage").body ∧
      decl.signature? = some lookupSignature ∧
      (Document.parse lookupSignature "shown.sage").body.map Item.unplaced =
        [.declaration decl.header.unplaced] := by
  have listed : (Document.parse lookupSource "table.sage").body.map Item.signature? =
      [some lookupSignature] := by decide +kernel
  have first : some lookupSignature ∈
      (Document.parse lookupSource "table.sage").body.map Item.signature? := by
    rw [listed]
    exact List.mem_singleton_self _
  obtain ⟨node, member, signed⟩ := List.mem_map.mp first
  cases node with
  | declaration decl =>
      have headed : decl.kind ≠ .implementation := by
        intro same
        cases decl <;> cases same
        cases signed
      obtain ⟨text, shown, back⟩ := parse_signature member headed
      cases shown.symm.trans signed
      exact ⟨decl, member, signed, back "shown.sage"⟩
  | inferred | separator | statement | part => cases signed

end Grammar

end SageNotation
