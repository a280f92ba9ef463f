import SageNotation.Proofs.Grammar.Origins
import SageNotation.Proofs.Signature.Documents
import SageNotation.Proofs.Token.Firm

/-!
Findings by the parts of a document.

A declaration whose head has a name is checked part by part: its named parts, its
contracts and its statements, each by itself (`findings_declaration`).  The first
pass over a document finds nothing but duplicates (`duplicate_of_registerAll`).
So every finding is about an item or about a part of it (`concerns_of_finding`).
-/

namespace SageNotation

namespace Entry

def findings (entry : Entry) : List Located :=
  checkPart entry.part entry.name entry.span

end Entry

namespace Contract

def findings (contract : Contract) : List Located :=
  if Text.allBlank contract.condition then [⟨.emptyContract contract.kind, contract.span⟩] else []

end Contract

namespace Declaration

/-- The name a declaration starts with: its own, or that of the parent it refines. -/
def headName? : Declaration → Option String
  | module decl => some decl.name
  | type decl => some decl.name
  | function decl | operation decl => some decl.name
  | spec decl => some decl.name
  | refinement decl => some decl.parent
  | implementation _ => none

def undeclared (registry : Registry) : Declaration → List Located
  | refinement decl =>
      if (registry.find? decl.parent).isNone then [⟨.undeclaredParent decl.parent, decl.span⟩]
      else []
  | _ => []

end Declaration

theorem findings_declaration {decl : Declaration} (registry : Registry) (warnRawLines : Bool)
    (named : ∀ name ∈ decl.headName?, Text.allBlank name = false) :
    Item.findings registry warnRawLines (.declaration decl) =
      decl.undeclared registry ++ decl.entries.flatMap Entry.findings ++
        decl.contracts.flatMap Contract.findings ++
        decl.statements.flatMap (Statement.findings warnRawLines) := by
  have checked : ∀ kind name span, decl.headName? = some name → checkName kind name span = [] := by
    intro kind name span known
    rw [checkName, named name known]
    rfl
  cases decl with
  | module node =>
      rw [Item.findings, checked _ _ _ rfl]
      rfl
  | type node =>
      rw [Item.findings, checked _ _ _ rfl, List.nil_append, Declaration.entries, List.flatMap_map]
      simp only [Declaration.undeclared, Declaration.contracts, Declaration.statements,
        List.flatMap_nil, List.append_nil, List.nil_append]
      rfl
  | function node | operation node =>
      rw [Item.findings, Callable.findings, checked _ _ _ rfl, Declaration.entries,
        List.flatMap_map]
      rfl
  | spec node =>
      rw [Item.findings, checked _ _ _ rfl, List.nil_append, Declaration.entries, List.flatMap_map]
      simp only [Declaration.undeclared, Declaration.contracts, Declaration.statements,
        List.flatMap_nil, List.append_nil, List.nil_append]
      rfl
  | refinement node =>
      have parent : Text.allBlank node.parent = false := named node.parent rfl
      rw [Item.findings, Refinement.findings, parent, Declaration.entries, List.flatMap_map]
      simp only [Bool.false_eq_true, if_false, Declaration.undeclared, Declaration.contracts,
        Declaration.statements, List.flatMap_nil, List.append_nil]
      rfl
  | implementation node => rfl

/-- Registering the names of a document finds duplicates and nothing else. -/
theorem duplicate_of_registerAll {registry : Registry} {items : List Item} {located : Located}
    (member : located ∈ (Item.registerAll registry items).2) :
    ∃ decl name first, .declaration decl ∈ items ∧ decl.introduces? = some name ∧
      located = ⟨.duplicate decl.kind name first, decl.span⟩ := by
  induction items generalizing registry with
  | nil => cases member
  | cons item others ih =>
      have later : ∀ {registry}, located ∈ (Item.registerAll registry others).2 →
          ∃ decl name first, .declaration decl ∈ item :: others ∧ decl.introduces? = some name ∧
            located = ⟨.duplicate decl.kind name first, decl.span⟩ := by
        intro registry within
        obtain ⟨decl, name, first, listed, rest⟩ := ih within
        exact ⟨decl, name, first, List.mem_cons_of_mem item listed, rest⟩
      cases item with
      | declaration decl =>
          rw [Item.registerAll] at member
          rcases List.mem_append.mp member with here | within
          · unfold Declaration.register at here
            split at here
            · cases here
            · rename_i name introduced
              split at here
              · cases here
              · split at here
                · cases here
                · rename_i first _
                  split at here
                  · exact ⟨decl, name, first.span, List.mem_cons_self, introduced,
                      List.mem_singleton.mp here⟩
                  · cases here
          · exact later within
      | inferred | separator | statement | part => exact later member

/-! ### What a finding is about -/

/-- The finding is about the item or a part of it, and was made at that node. -/
inductive Item.Concerns : Item → Located → Prop where
  | duplicate {decl : Declaration} {name : String} (first : Span)
      (introduced : decl.introduces? = some name) :
      Concerns (.declaration decl) ⟨.duplicate decl.kind name first, decl.span⟩
  | parent (decl : Refinement) :
      Concerns (.declaration (.refinement decl)) ⟨.undeclaredParent decl.parent, decl.span⟩
  | entry {decl : Declaration} {entry : Entry} (member : entry ∈ decl.entries) :
      Concerns (.declaration decl) ⟨.emptyPart entry.part, entry.span⟩
  | contract {decl : Declaration} {contract : Contract} (member : contract ∈ decl.contracts) :
      Concerns (.declaration decl) ⟨.emptyContract contract.kind, contract.span⟩
  | line {decl : Declaration} {line : RawLine} (member : .raw line ∈ decl.statements) :
      Concerns (.declaration decl) ⟨.rawLine line.text, line.span⟩
  | statement (line : RawLine) :
      Concerns (.statement (.raw line)) ⟨.rawLine line.text, line.span⟩
  | inference (fact : InferredFact) :
      Concerns (.inferred fact) ⟨.emptyInference fact.inference, fact.span⟩
  | reason (fact : InferredFact) :
      Concerns (.inferred fact) ⟨.missingReason fact.inference, fact.span⟩

section Concerns

variable {located : Located} {warnRawLines : Bool}

theorem rawLine_of_finding {node : Statement} (member : located ∈ node.findings warnRawLines) :
    ∃ line, node = .raw line ∧ located = ⟨.rawLine line.text, line.span⟩ := by
  cases node with
  | raw line =>
      rw [Statement.findings] at member
      split at member
      · exact ⟨line, rfl, List.mem_singleton.mp member⟩
      · cases member
  | prose | decision | binding | conditional | ret => cases member

theorem concerns_of_declaration {decl : Declaration} {registry : Registry}
    (named : ∀ name ∈ decl.headName?, Text.allBlank name = false)
    (member : located ∈ Item.findings registry warnRawLines (.declaration decl)) :
    Item.Concerns (.declaration decl) located := by
  rw [findings_declaration registry warnRawLines named, List.mem_append, List.mem_append,
    List.mem_append] at member
  rcases member with ((undeclared | entry) | contract) | statement
  · cases decl with
    | refinement node =>
        rw [Declaration.undeclared] at undeclared
        split at undeclared
        · rw [List.mem_singleton.mp undeclared]
          exact .parent node
        · cases undeclared
    | module | type | function | spec | operation | implementation => cases undeclared
  · obtain ⟨part, listed, found⟩ := List.mem_flatMap.mp entry
    rw [Entry.findings, checkPart] at found
    split at found
    · rw [List.mem_singleton.mp found]
      exact .entry listed
    · cases found
  · obtain ⟨part, listed, found⟩ := List.mem_flatMap.mp contract
    rw [Contract.findings] at found
    split at found
    · rw [List.mem_singleton.mp found]
      exact .contract listed
    · cases found
  · obtain ⟨node, listed, found⟩ := List.mem_flatMap.mp statement
    obtain ⟨line, rfl, rfl⟩ := rawLine_of_finding found
    exact .line listed

theorem concerns_of_inferred {fact : InferredFact} (member : located ∈ fact.findings) :
    Item.Concerns (.inferred fact) located := by
  rcases List.mem_append.mp member with empty | missing
  · split at empty
    · rw [List.mem_singleton.mp empty]
      exact .inference fact
    · cases empty
  · split at missing
    · rw [List.mem_singleton.mp missing]
      exact .reason fact
    · cases missing

/-- Where every declaration has a name at its head, each finding concerns an item. -/
theorem concerns_of_finding {document : Document}
    (named : ∀ decl, .declaration decl ∈ document.body →
      ∀ name ∈ decl.headName?, Text.allBlank name = false)
    (member : located ∈ document.findings warnRawLines) :
    ∃ item ∈ document.body, item.Concerns located := by
  rcases List.mem_append.mp member with first | second
  · obtain ⟨decl, name, place, listed, introduced, rfl⟩ := duplicate_of_registerAll first
    exact ⟨.declaration decl, listed, .duplicate place introduced⟩
  · obtain ⟨item, listed, found⟩ := List.mem_flatMap.mp second
    refine ⟨item, listed, ?_⟩
    cases item with
    | declaration decl => exact concerns_of_declaration (named decl listed) found
    | inferred fact => exact concerns_of_inferred found
    | statement node =>
        obtain ⟨line, rfl, rfl⟩ := rawLine_of_finding found
        exact .statement line
    | separator | part => cases found

end Concerns

/-! ### Names that are read -/

theorem headName_of_mem_parse {source file : String} {decl : Declaration}
    (member : .declaration decl ∈ (Document.parse source file).body) :
    ∀ name ∈ decl.headName?, Text.allBlank name = false := by
  have legible := Grammar.legible_of_mem_parse member
  intro name known
  cases decl with
  | module | spec =>
      cases known
      exact Token.IsName.allBlank legible
  | type =>
      cases known
      exact Token.IsName.allBlank legible.1
  | function | operation =>
      cases known
      exact legible.named.allBlank
  | refinement =>
      cases known
      exact legible.parent.allBlank
  | implementation => cases known

end SageNotation
