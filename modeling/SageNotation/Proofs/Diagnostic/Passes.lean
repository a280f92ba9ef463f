import SageNotation.Proofs.Diagnostic.Findings

/-!
The two passes over a document.

The first pass finds duplicates and nothing else.  The second checks each item by itself:
its raw lines are reported behind everything else and only if that is asked for
(`findings_true`), and what else is found there is neither a raw line nor a duplicate
(`findings_ordinary`).  So the warnings about raw lines are the raw lines of the document,
and without them the rest stays as it is (`warned_rawLines`).
-/

namespace SageNotation

namespace Located

def isDuplicate (located : Located) : Bool :=
  located.finding.code == "W200"

def isRawLine (located : Located) : Bool :=
  located.finding.code == "W100"

/-- Neither a duplicate nor a raw line. -/
def isOrdinary (located : Located) : Bool :=
  !located.isDuplicate && !located.isRawLine

theorem isOrdinary_iff {located : Located} :
    located.isOrdinary = true ↔ located.isDuplicate = false ∧ located.isRawLine = false := by
  rw [isOrdinary, Bool.and_eq_true, Bool.not_eq_true', Bool.not_eq_true']

end Located

/-! ### What is found without warnings about raw lines -/

theorem ordinary_ite {condition : Prop} [Decidable condition] {one : Located}
    (ordinary : one.isOrdinary = true) :
    ∀ located ∈ if condition then [one] else [], located.isOrdinary = true := by
  split
  · exact List.forall_mem_singleton.mpr ordinary
  · exact List.forall_mem_nil _

theorem ordinary_flatMap {α : Type} {check : α → List Located} {parts : List α}
    (each : ∀ part, ∀ located ∈ check part, located.isOrdinary = true) :
    ∀ located ∈ parts.flatMap check, located.isOrdinary = true := by
  intro located member
  obtain ⟨part, _, found⟩ := List.mem_flatMap.mp member
  exact each part located found

theorem checkName_ordinary (kind : DeclKind) (name : String) (span : Span) :
    ∀ located ∈ checkName kind name span, located.isOrdinary = true :=
  ordinary_ite rfl

theorem checkPart_ordinary (part : NamedPart) (name : String) (span : Span) :
    ∀ located ∈ checkPart part name span, located.isOrdinary = true :=
  ordinary_ite rfl

theorem checkState_ordinary (fields : List StateField) :
    ∀ located ∈ checkState fields, located.isOrdinary = true :=
  ordinary_flatMap fun _ => checkPart_ordinary _ _ _

theorem flatMap_statements_false (nodes : List Statement) :
    nodes.flatMap (Statement.findings false) = [] := by
  rw [List.flatMap_eq_nil_iff]
  intro node _
  cases node with
  | raw | prose | decision | binding | conditional | ret => rfl

theorem callable_ordinary (kind : DeclKind) (decl : Callable) :
    ∀ located ∈ decl.findings false kind, located.isOrdinary = true := by
  rw [Callable.findings, flatMap_statements_false, List.append_nil]
  refine List.forall_mem_append.mpr ⟨List.forall_mem_append.mpr ⟨?_, ?_⟩, ?_⟩
  · exact checkName_ordinary kind decl.name decl.span
  · exact ordinary_flatMap fun _ => checkPart_ordinary _ _ _
  · exact ordinary_flatMap fun _ => ordinary_ite rfl

theorem refinement_ordinary (registry : Registry) (decl : Refinement) :
    ∀ located ∈ decl.findings registry, located.isOrdinary = true := by
  rw [Refinement.findings]
  split
  · exact List.forall_mem_singleton.mpr rfl
  · exact List.forall_mem_append.mpr ⟨ordinary_ite rfl, checkState_ordinary decl.state⟩

theorem findings_ordinary (registry : Registry) (item : Item) :
    ∀ located ∈ item.findings registry false, located.isOrdinary = true := by
  cases item with
  | declaration decl =>
      cases decl with
      | module decl => exact checkName_ordinary _ _ _
      | type decl =>
          exact List.forall_mem_append.mpr
            ⟨checkName_ordinary _ _ _, ordinary_flatMap fun _ => checkPart_ordinary _ _ _⟩
      | function decl | operation decl => exact callable_ordinary _ decl
      | spec decl =>
          exact List.forall_mem_append.mpr ⟨checkName_ordinary _ _ _, checkState_ordinary _⟩
      | refinement decl => exact refinement_ordinary registry decl
      | implementation => exact List.forall_mem_nil _
  | inferred fact => exact List.forall_mem_append.mpr ⟨ordinary_ite rfl, ordinary_ite rfl⟩
  | statement node =>
      cases node with
      | raw | prose | decision | binding | conditional | ret => exact List.forall_mem_nil _
  | separator | part => exact List.forall_mem_nil _

/-! ### Warnings about raw lines -/

def Statement.rawLine? : Statement → Option RawLine
  | raw line => some line
  | prose _ | decision _ | binding _ | conditional _ | ret _ => none

/-- The raw lines of a document from top to bottom, with those in the bodies of functions
and operations in their places. -/
def Document.rawLines (document : Document) : List RawLine :=
  (document.body.flatMap Item.statements).filterMap Statement.rawLine?

def RawLine.located (line : RawLine) : Located :=
  ⟨.rawLine line.text, line.span⟩

section RawLines

variable (registry : Registry) (item : Item)

/-- Warnings about raw lines come behind everything else that is found at an item. -/
theorem findings_true :
    item.findings registry true =
      item.findings registry false ++ item.statements.flatMap (Statement.findings true) := by
  cases item with
  | declaration decl =>
      cases decl with
      | function decl | operation decl =>
          rw [Item.findings, Item.findings, Callable.findings, Callable.findings,
            flatMap_statements_false, List.append_nil]
          rfl
      | module | type | spec | refinement | implementation => exact (List.append_nil _).symm
  | statement node =>
      cases node with
      | raw | prose | decision | binding | conditional | ret => rfl
  | inferred | separator | part => exact (List.append_nil _).symm

theorem flatMap_statements_true (nodes : List Statement) :
    nodes.flatMap (Statement.findings true) =
      (nodes.filterMap Statement.rawLine?).map RawLine.located := by
  rw [List.map_filterMap, List.filterMap_eq_flatMap_toList]
  apply List.flatMap_congr
  intro node _
  cases node with
  | raw | prose | decision | binding | conditional | ret => rfl

theorem isRawLine_of_statements {nodes : List Statement} {located : Located}
    (member : located ∈ nodes.flatMap (Statement.findings true)) : located.isRawLine = true := by
  rw [flatMap_statements_true] at member
  obtain ⟨line, _, rfl⟩ := List.mem_map.mp member
  rfl

theorem item_rawLines :
    (item.findings registry true).filter Located.isRawLine =
      item.statements.flatMap (Statement.findings true) := by
  have none : (item.findings registry false).filter Located.isRawLine = [] := by
    rw [List.filter_eq_nil_iff]
    intro located member
    rw [(Located.isOrdinary_iff.mp (findings_ordinary registry item located member)).2]
    exact Bool.false_ne_true
  rw [findings_true, List.filter_append, none, List.nil_append, List.filter_eq_self]
  exact fun located => isRawLine_of_statements

theorem item_besides_rawLines :
    (item.findings registry true).filter (!·.isRawLine) = item.findings registry false := by
  have kept : (item.findings registry false).filter (!·.isRawLine) = item.findings registry false := by
    rw [List.filter_eq_self]
    intro located member
    rw [(Located.isOrdinary_iff.mp (findings_ordinary registry item located member)).2]
    rfl
  have none : (item.statements.flatMap (Statement.findings true)).filter (!·.isRawLine) = [] := by
    rw [List.filter_eq_nil_iff]
    intro located member
    rw [isRawLine_of_statements member]
    exact Bool.false_ne_true
  rw [findings_true, List.filter_append, kept, none, List.append_nil]

end RawLines

/-! ### The passes together -/

section Together

variable {located : Located} {registry : Registry}

theorem isDuplicate_of_registerAll {items : List Item}
    (member : located ∈ (Item.registerAll registry items).2) : located.isDuplicate = true := by
  obtain ⟨decl, name, first, _, _, rfl⟩ := duplicate_of_registerAll member
  rfl

theorem isRawLine_of_registerAll {items : List Item}
    (member : located ∈ (Item.registerAll registry items).2) : located.isRawLine = false := by
  obtain ⟨decl, name, first, _, _, rfl⟩ := duplicate_of_registerAll member
  rfl

theorem isDuplicate_of_finding {item : Item} {warnRawLines : Bool}
    (member : located ∈ item.findings registry warnRawLines) : located.isDuplicate = false := by
  have silent : ∀ located ∈ item.findings registry false, located.isDuplicate = false :=
    fun located member =>
      (Located.isOrdinary_iff.mp (findings_ordinary registry item located member)).1
  cases warnRawLines with
  | false => exact silent located member
  | true =>
      rw [findings_true, List.mem_append, flatMap_statements_true] at member
      rcases member with within | within
      · exact silent located within
      · obtain ⟨line, _, rfl⟩ := List.mem_map.mp within
        rfl

theorem duplicates_eq (warnRawLines : Bool) (document : Document) :
    (document.findings warnRawLines).filter Located.isDuplicate =
      (Item.registerAll [] document.body).2 := by
  have second : (document.body.flatMap (Item.findings document.registry warnRawLines)).filter
      Located.isDuplicate = [] := by
    rw [List.filter_eq_nil_iff]
    intro located member
    obtain ⟨item, _, found⟩ := List.mem_flatMap.mp member
    rw [isDuplicate_of_finding found]
    exact Bool.false_ne_true
  rw [Document.findings, List.filter_append, second, List.append_nil, List.filter_eq_self]
  exact fun located => isDuplicate_of_registerAll

/-- What is found besides duplicates is found at each item by itself. -/
theorem besides_duplicates_eq (warnRawLines : Bool) (document : Document) :
    (document.findings warnRawLines).filter (!·.isDuplicate) =
      document.body.flatMap (Item.findings document.registry warnRawLines) := by
  have first : (Item.registerAll [] document.body).2.filter (!·.isDuplicate) = [] := by
    rw [List.filter_eq_nil_iff]
    intro located member
    rw [isDuplicate_of_registerAll member]
    exact Bool.false_ne_true
  rw [Document.findings, List.filter_append, first, List.nil_append, List.filter_eq_self]
  intro located member
  obtain ⟨item, _, found⟩ := List.mem_flatMap.mp member
  rw [isDuplicate_of_finding found]
  rfl

theorem findings_rawLines (document : Document) :
    (document.findings true).filter Located.isRawLine =
      document.rawLines.map RawLine.located := by
  have first : (Item.registerAll [] document.body).2.filter Located.isRawLine = [] := by
    rw [List.filter_eq_nil_iff]
    intro located member
    rw [isRawLine_of_registerAll member]
    exact Bool.false_ne_true
  rw [Document.findings, List.filter_append, first, List.nil_append, List.filter_flatMap,
    List.flatMap_congr fun item _ => item_rawLines _ item, ← List.flatMap_assoc,
    flatMap_statements_true, Document.rawLines]

theorem findings_besides_rawLines (document : Document) :
    (document.findings true).filter (!·.isRawLine) = document.findings false := by
  have first : (Item.registerAll [] document.body).2.filter (!·.isRawLine) =
      (Item.registerAll [] document.body).2 := by
    rw [List.filter_eq_self]
    intro located member
    rw [isRawLine_of_registerAll member]
    rfl
  rw [Document.findings, List.filter_append, first, List.filter_flatMap,
    List.flatMap_congr fun item _ => item_besides_rawLines _ item, Document.findings]

end Together

/-- The warnings about raw lines are the raw lines of the document, in their order; and
what is reported without these warnings is everything else, in its order. -/
theorem warned_rawLines (document : Document) :
    ((document.diagnostics true).filter (·.code == "W100")).map
        (fun diagnostic => (diagnostic.message, diagnostic.labels.map Label.span)) =
      document.rawLines.map (fun line => ("unrecognized line: " ++ line.text, [line.span])) ∧
    document.diagnostics false = (document.diagnostics true).filter (·.code != "W100") := by
  constructor
  · have reported : (document.diagnostics true).filter (·.code == "W100") =
        (document.rawLines.map RawLine.located).map Located.toDiagnostic := by
      rw [Document.diagnostics, List.filter_map, ← findings_rawLines]
      rfl
    rw [reported, List.map_map, List.map_map]
    rfl
  · rw [Document.diagnostics, Document.diagnostics, List.filter_map, ← findings_besides_rawLines]
    rfl

end SageNotation
