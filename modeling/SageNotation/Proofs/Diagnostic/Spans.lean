import SageNotation.Diagnostic.Check
import SageNotation.Proofs.Diagnostic.Findings
import SageNotation.Proofs.Grammar.Coverage
import SageNotation.Proofs.Source.Rows

/-!
Spans that are stamped on nodes.

The ends of such a span are those of significant tokens, which are counted in the
text.  It names the file that the text was read from, and the character it starts
with is no newline.  The diagnostics of a source are about such spans
(`exists_stamped_of_listed`).
-/

namespace SageNotation

open Token

/-- A span that is not empty, from one counted position of a text to another. -/
structure Span.Counted (text : String) (span : Span) : Prop where
  start : span.start.Counted text
  stop : span.stop.Counted text
  nonempty : span.start.offset < span.stop.offset

/-- A position that has been counted right before a character which is no newline. -/
def Position.Meets (text : String) (position : Position) : Prop :=
  ∃ before first rest, text.toList = before ++ first :: rest ∧ first ≠ '\n' ∧
    position = Position.first.after before

theorem Position.Meets.counted {text : String} {position : Position} (meets : position.Meets text) :
    position.Counted text := by
  obtain ⟨before, first, rest, split, _, same⟩ := meets
  exact ⟨before, ⟨first :: rest, split.symm⟩, same⟩

/-- A span of the named text that starts with a character of a token. -/
structure Span.Stamped (text file : String) (span : Span) : Prop where
  counted : span.Counted text
  named : span.file = file
  meets : span.start.Meets text

namespace Grammar

variable {source file : String}

/-- A significant token ends where counting past it leads; a newline would not. -/
theorem ends_of_mem_tokenize {token : Token} (member : token ∈ tokenize source file)
    (significant : token.isSignificant = true) :
    token.span.start.Meets source ∧ token.span.stop.Counted source := by
  obtain ⟨before, first, rest, kind, split, found, same⟩ :=
    cut_of_mem_scan member (kind_ne_eof_of_isSignificant significant)
  have plain := isTrivia_of_isSignificant significant
  rw [same] at plain ⊢
  have other : kind ≠ .newline := by
    rintro rfl
    cases plain
  constructor
  · refine ⟨before, first, rest, split, ?_, rfl⟩
    rintro rfl
    exact other (Option.some.inj found).symm
  · refine ⟨before ++ first :: rest.take (lexeme first rest).extra, ?_, ?_⟩
    · rw [split, List.prefix_append_right_inj, List.prefix_cons_inj]
      exact List.take_prefix _ _
    · change stopOf kind _ _ = _
      rw [stopOf, if_neg other, Position.after_append]

theorem stamped_of_spanned {first : Token} {rest : List Token} {span : Span}
    (ahead : first :: rest <:+ beforeEnd (tokenize source file))
    (spanned : Spanned first rest span) : span.Stamped source file := by
  obtain ⟨plain, left, within, rfl⟩ := spanned
  have tokens : ∀ token ∈ first :: between rest left, token ∈ tokenize source file := by
    intro token member
    have inside : token ∈ first :: rest := by
      rw [← between_append_rest within, ← List.cons_append]
      exact List.mem_append_left left member
    exact (mem_beforeEnd.mp (ahead.subset inside)).1
  have laid := laid_tokenize source file
  obtain ⟨front, split⟩ := ahead
  rw [← split] at laid
  obtain ⟨place, _, laid⟩ := laid.split
  rw [← between_append_rest within, ← List.cons_append] at laid
  obtain ⟨stop, laid, _⟩ := laid.split
  have run : Laid file place stop (first :: between rest left) := laid
  have spans := spans_of_laid plain run
  have significant := run.isSignificant_of_mem List.mem_cons_self plain
  obtain ⟨meets, _⟩ := ends_of_mem_tokenize (tokens first List.mem_cons_self) significant
  obtain ⟨last, member, ends, lastStop⟩ := spans.last
  obtain ⟨_, counted⟩ := ends_of_mem_tokenize (tokens last member) ends
  rw [← lastStop] at counted
  rw [through_eq_extent]
  exact ⟨⟨meets.counted, counted, spans.between.nonempty⟩, spans.between.named, meets⟩

theorem stamped_of_stems {α : Type} {origin : Token → List Token → α → Prop} {part : α}
    {span : Span} (stems : Stems origin (beforeEnd (tokenize source file)) part)
    (each : ∀ {first rest}, origin first rest part → Spanned first rest span) :
    span.Stamped source file := by
  obtain ⟨first, rest, ahead, here⟩ := stems
  exact stamped_of_spanned ahead (each here)

theorem stamped_of_item {item : Item} {span : Span}
    (member : item ∈ (Document.parse source file).body) (stamped : item.span? = some span) :
    span.Stamped source file := by
  obtain ⟨first, rest, ahead, plain, rfl⟩ := exists_of_mem_parse member
  exact stamped_of_spanned ahead (spanned_item plain rest stamped)

theorem span?_declaration (decl : Declaration) :
    (Item.declaration decl).span? = some decl.span := by
  cases decl <;> rfl

theorem stamped_of_concerns {item : Item} {located : Located}
    (member : item ∈ (Document.parse source file).body) (concerns : item.Concerns located) :
    located.span.Stamped source file := by
  cases concerns with
  | duplicate | parent => exact stamped_of_item member (span?_declaration _)
  | entry listed =>
      exact stamped_of_stems ((stemming_of_mem_parse member).entries _ listed) NamedAt.spanned
  | contract listed =>
      exact stamped_of_stems ((stemming_of_mem_parse member).contracts _ listed) ContractAt.spanned
  | line listed =>
      exact stamped_of_stems ((stemming_of_mem_parse member).statements _ listed)
        StatementAt.spanned
  | statement | inference | reason => exact stamped_of_item member rfl

theorem counted_of_stems {α : Type} {origin : Token → List Token → α → Prop} {part : α}
    {span : Span} (stems : Stems origin (beforeEnd (tokenize source file)) part)
    (each : ∀ {first rest}, origin first rest part → Spanned first rest span) :
    span.Counted source :=
  (stamped_of_stems stems each).counted

theorem counted_of_item {item : Item} {span : Span}
    (member : item ∈ (Document.parse source file).body) (stamped : item.span? = some span) :
    span.Counted source :=
  (stamped_of_item member stamped).counted

theorem counted_of_concerns {item : Item} {located : Located}
    (member : item ∈ (Document.parse source file).body) (concerns : item.Concerns located) :
    located.span.Counted source :=
  (stamped_of_concerns member concerns).counted

end Grammar

/-- Every diagnostic of a source is that of a finding at a stamped span. -/
theorem CheckResult.exists_stamped_of_listed {options : CheckOptions} {source file : String}
    {diagnostic : Diagnostic}
    (listed : diagnostic ∈ (CheckResult.ofSource options source file).diagnostics) :
    ∃ located : Located, diagnostic = located.toDiagnostic ∧ located.span.Stamped source file := by
  obtain ⟨located, found, same⟩ := List.mem_map.mp listed
  obtain ⟨item, within, concerns⟩ :=
    concerns_of_finding (fun _ declared => headName_of_mem_parse declared) found
  exact ⟨located, same.symm, Grammar.stamped_of_concerns within concerns⟩

end SageNotation
