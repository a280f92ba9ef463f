import SageNotation.Diagnostic.Check
import SageNotation.Proofs.Diagnostic.Findings

/-!
The errors of a text.

A text has no other errors than empty conditions.  A contract is read up to the
next newline or comment, and the readable text of what was read is blank only if
nothing was; so its condition is empty exactly where its keyword is the last
token of the line (`allBlank_condition`).  Names come from identifiers, which are
never blank.
-/

namespace SageNotation

open Token Grammar

/-! ### Keywords without a condition -/

def bareAt (tokens : List Token) (position : Position) : Bool :=
  match tokens.dropWhile (·.span.start != position) with
  | _ :: next :: _ => next.isTrivia || next.kind == .eof
  | _ => false

/-- Contracts whose keyword is directly followed by a newline, a comment or the end, and
inferred facts without a condition. -/
def Item.emptyConditions (tokens : List Token) : Item → List Located
  | declaration decl => decl.contracts.flatMap fun contract =>
      if bareAt tokens contract.span.start then [⟨.emptyContract contract.kind, contract.span⟩]
      else []
  | inferred fact =>
      if fact.condition = "" then [⟨.emptyInference fact.inference, fact.span⟩] else []
  | _ => []

/-- The tokens around the keyword of a contract, which is the only one at its place. -/
structure KeywordAt (tokens : List Token) (contract : Contract) (before : List Token)
    (keyword next : Token) (after : List Token) : Prop where
  split : tokens = before ++ keyword :: next :: after
  kind : contractKind? keyword.kind = some contract.kind
  start : keyword.span.start = contract.span.start
  first : ∀ token ∈ before, token.span.start ≠ contract.span.start

theorem KeywordAt.bareAt_eq {tokens before after : List Token} {contract : Contract}
    {keyword next : Token} (here : KeywordAt tokens contract before keyword next after) :
    bareAt tokens contract.span.start = (next.isTrivia || next.kind == .eof) := by
  have passed : ∀ token ∈ before, (token.span.start != contract.span.start) = true :=
    fun token member => bne_iff_ne.mpr (here.first token member)
  have behind : tokens.dropWhile (·.span.start != contract.span.start) =
      keyword :: next :: after := by
    rw [here.split, List.dropWhile_append_of_pos passed]
    apply List.dropWhile_cons_of_neg
    rw [here.start, bne_self_eq_false]
    exact Bool.false_ne_true
  rw [bareAt, behind]

namespace Grammar

variable {source file : String}

theorem starts_ordered (source file : String) :
    (beforeEnd (tokenize source file)).Pairwise fun earlier later =>
      earlier.span.start.offset < later.span.start.offset := by
  apply (inOrder_tokenize source file).pairwise (widens_between file)
  intro earlier later lower middle upper before after
  exact Int.lt_of_lt_of_le before.nonempty (Int.le_trans before.before after.after)

theorem standing_line {rest : List Token}
    (within : ∀ token ∈ rest, token ∈ beforeEnd (tokenize source file)) :
    ∀ token ∈ line rest, Standing token.text := by
  intro token member
  exact standing_of_mem_beforeEnd (within token (List.takeWhile_subset _ member))
    (isTrivia_of_mem_line member)

/-- The keyword of a contract with the token after it.  The condition is blank exactly
where this ends the line. -/
theorem exists_keyword {contract : Contract}
    (stems : Stems ContractAt (beforeEnd (tokenize source file)) contract) :
    ∃ before keyword next after,
      KeywordAt (tokenize source file) contract before keyword next after ∧
      Text.allBlank contract.condition = (next.isTrivia || next.kind == .eof) := by
  obtain ⟨keyword, rest, ⟨before, split⟩, kind, condition, span⟩ := stems
  have whole := tokenize_eq source file
  have start : keyword.span.start = contract.span.start := by
    rw [span]
    rfl
  have first : ∀ token ∈ before, token.span.start ≠ contract.span.start := by
    intro token member same
    have ordered := starts_ordered source file
    rw [← split] at ordered
    have earlier := (List.pairwise_append.mp ordered).2.2 token member keyword List.mem_cons_self
    rw [same, start] at earlier
    exact Int.lt_irrefl _ earlier
  have within : ∀ token ∈ rest, token ∈ beforeEnd (tokenize source file) := by
    intro token member
    rw [← split]
    exact List.mem_append_right before (List.mem_cons_of_mem keyword member)
  have blank : Text.allBlank contract.condition = true ↔ line rest = [] := by
    rw [condition]
    exact allBlank_render_iff (standing_line within)
  rw [← split, List.append_assoc] at whole
  cases rest with
  | nil =>
      refine ⟨before, keyword, _, [], ⟨whole, kind, start, first⟩, ?_⟩
      rw [blank.mpr rfl]
      rfl
  | cons next others =>
      refine ⟨before, keyword, next, _, ⟨whole, kind, start, first⟩, ?_⟩
      have unmarked := kind_ne_eof_of_mem_beforeEnd (within next List.mem_cons_self)
      have ends := endsLine_of_unmarked unmarked
      rw [beq_false_of_ne unmarked, Bool.or_false, Bool.eq_iff_iff, blank, line]
      cases trivia : next.isTrivia with
      | true =>
          rw [List.takeWhile_cons_of_neg (by rw [ends, trivia]; exact Bool.false_ne_true)]
          exact iff_of_true rfl rfl
      | false =>
          rw [List.takeWhile_cons_of_pos (by rw [ends, trivia]; rfl)]
          exact iff_of_false (List.cons_ne_nil _ _) Bool.false_ne_true

end Grammar

/-! ### Errors among the findings -/

def Located.isError (located : Located) : Bool :=
  located.finding.severity == .error

section Errors

variable {source file : String} {warnRawLines : Bool}

theorem errors_undeclared (registry : Registry) (decl : Declaration) :
    (decl.undeclared registry).filter Located.isError = [] := by
  cases decl with
  | refinement node =>
      rw [Declaration.undeclared]
      split <;> rfl
  | module | type | function | spec | operation | implementation => rfl

theorem errors_statement (node : Statement) :
    (node.findings warnRawLines).filter Located.isError = [] := by
  cases node with
  | raw line =>
      rw [Statement.findings]
      split <;> rfl
  | prose | decision | binding | conditional | ret => rfl

theorem errors_duplicates (registry : Registry) (items : List Item) :
    (Item.registerAll registry items).2.filter Located.isError = [] := by
  rw [List.filter_eq_nil_iff]
  intro located member
  obtain ⟨decl, name, first, _, _, rfl⟩ := duplicate_of_registerAll member
  exact Bool.false_ne_true

theorem findings_entry {entry : Entry}
    (stems : Stems NamedAt (beforeEnd (tokenize source file)) entry) : entry.findings = [] := by
  obtain ⟨first, rest, ahead, name, same, _⟩ := stems
  have member := (mem_beforeEnd.mp (ahead.subset List.mem_cons_self)).1
  rw [Entry.findings, checkPart, same, (isName_of_mem_tokenize member name).allBlank]
  rfl

theorem findings_contract {contract : Contract}
    (stems : Stems ContractAt (beforeEnd (tokenize source file)) contract) :
    contract.findings =
      if bareAt (tokenize source file) contract.span.start then
        [⟨.emptyContract contract.kind, contract.span⟩]
      else [] := by
  obtain ⟨before, keyword, next, after, here, blank⟩ := exists_keyword stems
  rw [Contract.findings, here.bareAt_eq, blank]

theorem errors_item {item : Item} (registry : Registry)
    (member : item ∈ (Document.parse source file).body) :
    (Item.findings registry warnRawLines item).filter Located.isError =
      item.emptyConditions (tokenize source file) := by
  cases item with
  | declaration decl =>
      have stemming := stemming_of_mem_parse member
      have entries : decl.entries.flatMap Entry.findings = [] :=
        List.flatMap_eq_nil_iff.mpr fun entry listed => findings_entry (stemming.entries entry listed)
      have statements : (decl.statements.flatMap (Statement.findings warnRawLines)).filter
          Located.isError = [] := by
        rw [List.filter_flatMap]
        exact List.flatMap_eq_nil_iff.mpr fun node _ => errors_statement node
      have contracts : (decl.contracts.flatMap Contract.findings).filter Located.isError =
          decl.contracts.flatMap Contract.findings := by
        rw [List.filter_eq_self]
        intro located within
        obtain ⟨contract, _, found⟩ := List.mem_flatMap.mp within
        rw [Contract.findings] at found
        split at found
        · rw [List.mem_singleton.mp found]
          rfl
        · cases found
      rw [findings_declaration registry warnRawLines (headName_of_mem_parse member), entries,
        List.append_nil, List.filter_append, List.filter_append, errors_undeclared, statements,
        contracts, List.nil_append, List.append_nil, Item.emptyConditions]
      exact List.flatMap_congr fun contract listed =>
        findings_contract (stemming.contracts contract listed)
  | inferred fact =>
      have reason : (if fact.reason.isNone then
          [(⟨.missingReason fact.inference, fact.span⟩ : Located)] else []).filter
            Located.isError = [] := by
        split <;> rfl
      rw [Item.findings, InferredFact.findings, List.filter_append, reason, List.append_nil,
        Item.emptyConditions]
      by_cases empty : fact.condition = ""
      · rw [if_pos empty, empty]
        rfl
      · have full : fact.condition.isEmpty = false := by
          rw [← Bool.not_eq_true, String.isEmpty_iff]
          exact empty
        rw [if_neg empty, full]
        rfl
  | statement node => exact errors_statement node
  | separator | part => rfl

/-- The errors among the findings of a text are the empty conditions in it. -/
theorem errors_findings (source file : String) (warnRawLines : Bool) :
    ((Document.parse source file).findings warnRawLines).filter Located.isError =
      (Document.parse source file).body.flatMap (Item.emptyConditions (tokenize source file)) := by
  rw [Document.findings, List.filter_append, errors_duplicates, List.nil_append,
    List.filter_flatMap]
  exact List.flatMap_congr fun item member => errors_item _ member

end Errors

/-! ### Checks of a text -/

/-- What a check reports as errors, with any options and also where it reports by failing:
contracts whose keyword is directly followed by a newline, a comment or the end, inferred
facts whose condition is the empty text, and nothing else. -/
structure OnlyEmptyConditions (options : CheckOptions) (result : CheckResult) : Prop where
  errors : Diagnostic.ofSeverity .error result.diagnostics =
    (result.document.body.flatMap (Item.emptyConditions result.tokens)).map Located.toDiagnostic
  keywords : ∀ decl, .declaration decl ∈ result.document.body → ∀ contract ∈ decl.contracts,
    ∃ before keyword next after, KeywordAt result.tokens contract before keyword next after ∧
      bareAt result.tokens contract.span.start = (next.isTrivia || next.kind == .eof)
  named : ∀ diagnostic ∈ result.diagnostics,
    diagnostic.code ≠ "E100" ∧ diagnostic.code ≠ "E101" ∧
      (diagnostic.severity = .error → diagnostic.code = "E110")
  failed : ∀ failing, result.orFailing options.strict = .error failing →
    Diagnostic.ofSeverity .error failing = Diagnostic.ofSeverity .error result.diagnostics

theorem code_of_emptyConditions {tokens : List Token} {item : Item} {located : Located}
    (member : located ∈ item.emptyConditions tokens) : located.finding.code = "E110" := by
  cases item with
  | declaration decl =>
      obtain ⟨contract, _, found⟩ := List.mem_flatMap.mp member
      split at found
      · rw [List.mem_singleton.mp found]
        rfl
      · cases found
  | inferred fact =>
      rw [Item.emptyConditions] at member
      split at member
      · rw [List.mem_singleton.mp member]
        rfl
      · cases member
  | separator | statement | part => cases member

theorem isError_of_code {located : Located}
    (code : located.finding.code = "E100" ∨ located.finding.code = "E101") :
    located.isError = true := by
  obtain ⟨finding, span⟩ := located
  cases finding with
  | emptyName | emptyParent | emptyPart | emptyContract | emptyInference => rfl
  | rawLine | duplicate | undeclaredParent | missingReason =>
      exact absurd code (by simp [Finding.code])

theorem ofSource_onlyEmptyConditions (options : CheckOptions) (source file : String) :
    OnlyEmptyConditions options (CheckResult.ofSource options source file) := by
  have errors := errors_findings source file options.warnRawLines
  refine ⟨?_, ?_, ?_, ?_⟩
  · rw [Diagnostic.ofSeverity]
    change ((Document.findings options.warnRawLines (Document.parse source file)).map
      Located.toDiagnostic).filter (·.severity == .error) = _
    rw [List.filter_map]
    exact congrArg (List.map Located.toDiagnostic) errors
  · intro decl member contract listed
    obtain ⟨before, keyword, next, after, here, _⟩ :=
      exists_keyword ((stemming_of_mem_parse member).contracts contract listed)
    exact ⟨before, keyword, next, after, here, here.bareAt_eq⟩
  · intro diagnostic member
    obtain ⟨located, listed, rfl⟩ := List.mem_map.mp member
    have found : located ∈ (Document.parse source file).findings options.warnRawLines := listed
    have coded : located.isError = true → located.finding.code = "E110" := by
      intro error
      have among := List.mem_filter.mpr ⟨found, error⟩
      rw [errors] at among
      obtain ⟨item, _, within⟩ := List.mem_flatMap.mp among
      exact code_of_emptyConditions within
    change located.finding.code ≠ "E100" ∧ located.finding.code ≠ "E101" ∧
      (located.finding.severity = .error → located.finding.code = "E110")
    refine ⟨?_, ?_, fun error => coded (beq_iff_eq.mpr error)⟩
    · intro code
      have other := coded (isError_of_code (Or.inl code))
      rw [code] at other
      exact absurd other (by decide)
    · intro code
      have other := coded (isError_of_code (Or.inr code))
      rw [code] at other
      exact absurd other (by decide)
  · intro failing failed
    rw [CheckResult.orFailing] at failed
    split at failed
    · cases failed
    · cases failed
      rw [Diagnostic.ofSeverity, Diagnostic.failing, List.filter_filter, Diagnostic.ofSeverity]
      apply List.filter_congr
      intro diagnostic _
      cases diagnostic.severity == Severity.error <;> rfl

end SageNotation
