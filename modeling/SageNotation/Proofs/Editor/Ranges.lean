import SageNotation.Editor.Session
import SageNotation.Proofs.Diagnostic.Registry
import SageNotation.Proofs.Diagnostic.Spans
import SageNotation.Proofs.Document.View

/-!
Ranges that an editor is sent.

A span whose ends are counted in a text has a range that addresses its characters:
both ends are places of the text, in order, and what stands between them is the
text of the span (`addresses_ofSpan`).  The ends of a span that is stamped on a
node are counted, so that every range in an analysis addresses the text of its
node.
-/

namespace SageNotation

open Token

namespace Grammar

variable {source file : String}

/-! ### Parts inside their declaration -/

theorem entries_listed (decl : Declaration) :
    ∃ label fields, decl.toTree = .node label fields decl.span ∧
      ∀ entry ∈ decl.entries, ∃ name items item, (name, Tree.list items) ∈ fields ∧
        item ∈ items ∧ item.span? = some entry.span := by
  cases decl with
  | module | implementation => exact ⟨_, _, rfl, List.forall_mem_nil _⟩
  | type node =>
      refine ⟨_, _, rfl, ?_⟩
      intro entry member
      obtain ⟨field, within, rfl⟩ := List.mem_map.mp member
      refine ⟨_, _, field.toTree, List.mem_cons_of_mem _ List.mem_cons_self, ?_, ?_⟩
      · rw [fieldsToTrees_eq_map]
        exact List.mem_map_of_mem within
      · obtain ⟨name, type, span⟩ := field
        rfl
  | function node | operation node =>
      refine ⟨_, _, rfl, ?_⟩
      intro entry member
      obtain ⟨param, within, rfl⟩ := List.mem_map.mp member
      exact ⟨_, _, _, List.mem_cons_of_mem _ List.mem_cons_self, List.mem_map_of_mem within, rfl⟩
  | spec node | refinement node =>
      refine ⟨_, _, rfl, ?_⟩
      intro entry member
      obtain ⟨field, within, rfl⟩ := List.mem_map.mp member
      refine ⟨"state", _, _, ?_, List.mem_map_of_mem (f := StateField.toTree) within, rfl⟩
      simp only [List.mem_cons, true_or, or_true]

theorem entry_inside {decl : Declaration} {entry : Entry}
    (member : .declaration decl ∈ (Document.parse source file).body)
    (listed : entry ∈ decl.entries) : entry.span.Inside decl.span := by
  obtain ⟨spans, accounts⟩ := items_account (laid_tokenize source file)
  rw [← body_parse] at accounts
  have fits : decl.toTree.Fits file 0 source.length :=
    accounts.fits.stands_of_mem (Tree.widens_fits file)
      (List.mem_map_of_mem (f := Item.toTree) member)
  obtain ⟨label, fields, node, each⟩ := entries_listed decl
  obtain ⟨name, items, item, field, within, stamped⟩ := each entry listed
  rw [node] at fits
  exact (Tree.nested_of_reaches fits (.here _)).2.items name items item entry.span field within
    stamped

end Grammar

namespace Editor

/-! ### Places and the text between them -/

namespace Place

/-- The offset of a place in a text, where the text has this place. -/
def offsetIn? (source : SourceText) (place : Place) : Option Int :=
  if 0 ≤ place.line ∧ 0 ≤ place.character then
    (SourceText.rowOffset? source.rows place.line.toNat place.character.toNat).map Int.ofNat
  else none

def Before (left right : Place) : Prop :=
  left.line < right.line ∨ (left.line = right.line ∧ left.character < right.character)

def UpTo (left right : Place) : Prop :=
  left.line < right.line ∨ (left.line = right.line ∧ left.character ≤ right.character)

/-- A position counts from one, a place from zero. -/
def ofPosition (position : Position) : Place :=
  ⟨position.line - 1, position.col - 1⟩

theorem offsetIn?_ofPosition {source : SourceText} {position : Position}
    (counted : position.Counted source.content) :
    (ofPosition position).offsetIn? source = some position.offset := by
  have line := counted.line_pos
  have col := counted.col_pos
  have inside : 0 ≤ (ofPosition position).line ∧ 0 ≤ (ofPosition position).character := by
    simp only [ofPosition]
    omega
  have offset : Int.ofNat position.offset.toNat = position.offset := by
    obtain ⟨before, _, rfl⟩ := counted
    rw [Position.offset_after]
    change Int.ofNat ((0 : Int) + before.length).toNat = 0 + before.length
    rw [Int.zero_add, Int.toNat_natCast]
    rfl
  rw [offsetIn?, if_pos inside]
  change (SourceText.rowOffset? source.rows (position.line - 1).toNat
    (position.col - 1).toNat).map Int.ofNat = _
  rw [counted.rowOffset?_eq, Option.map_some, offset]

section Order

variable {text : String} {earlier later : Position}

theorem before_ofPosition (first : earlier.Counted text) (second : later.Counted text)
    (ordered : earlier.offset < later.offset) : (ofPosition earlier).Before (ofPosition later) := by
  obtain ⟨between, rfl, length⟩ := first.exists_after second (Int.le_of_lt ordered)
  simp only [Before, ofPosition]
  rcases earlier.after_forward between with below | ⟨same, further⟩ <;> omega

theorem upTo_ofPosition (first : earlier.Counted text) (second : later.Counted text)
    (ordered : earlier.offset ≤ later.offset) : (ofPosition earlier).UpTo (ofPosition later) := by
  obtain ⟨between, rfl, _⟩ := first.exists_after second ordered
  simp only [UpTo, ofPosition]
  rcases earlier.after_forward between with below | ⟨same, further⟩ <;> omega

end Order

end Place

namespace Range

/-- The characters between the two places of a range. -/
def textIn? (source : SourceText) (range : Range) : Option String :=
  match range.start.offsetIn? source, range.stop.offsetIn? source with
  | some start, some stop => some (source.slice start stop)
  | _, _ => none

/-- A range whose ends are places of the text, the first before the second, and which
delimits the characters of the span and no others. -/
structure Addresses (source : SourceText) (span : Span) (range : Range) : Prop where
  nonnegative : 0 ≤ range.start.line ∧ 0 ≤ range.start.character ∧ 0 ≤ range.stop.line ∧
    0 ≤ range.stop.character
  ordered : range.start.Before range.stop
  start : range.start.offsetIn? source = some span.start.offset
  stop : range.stop.offsetIn? source = some span.stop.offset
  text : range.textIn? source = some (source.spanText span)

structure Inside (inner outer : Range) : Prop where
  start : outer.start.UpTo inner.start
  stop : inner.stop.UpTo outer.stop

theorem ofSpan_eq {text : String} {span : Span} (counted : span.Counted text) :
    ofSpan span = ⟨.ofPosition span.start, .ofPosition span.stop⟩ := by
  have col := counted.stop.col_pos
  have kept : max (span.stop.col - 1) 0 = span.stop.col - 1 := by omega
  rw [ofSpan, kept]
  rfl

theorem addresses_ofSpan (source : SourceText) {span : Span}
    (counted : span.Counted source.content) : (ofSpan span).Addresses source span := by
  have start := Place.offsetIn?_ofPosition counted.start
  have stop := Place.offsetIn?_ofPosition counted.stop
  rw [ofSpan_eq counted]
  refine ⟨?_, Place.before_ofPosition counted.start counted.stop counted.nonempty, start, stop, ?_⟩
  · have startLine := counted.start.line_pos
    have startCol := counted.start.col_pos
    have stopLine := counted.stop.line_pos
    have stopCol := counted.stop.col_pos
    simp only [Place.ofPosition]
    omega
  · rw [textIn?, start, stop]
    rfl

theorem inside_ofSpan {text : String} {inner outer : Span} (innerCounted : inner.Counted text)
    (outerCounted : outer.Counted text) (inside : inner.Inside outer) :
    (ofSpan inner).Inside (ofSpan outer) := by
  rw [ofSpan_eq innerCounted, ofSpan_eq outerCounted]
  exact ⟨Place.upTo_ofPosition outerCounted.start innerCounted.start inside.start,
    Place.upTo_ofPosition innerCounted.stop outerCounted.stop inside.stop⟩

end Range

/-! ### Symbols and definitions -/

/-- A symbol has the range of its declaration, and below it one member for each named
part, with the range of that part. -/
theorem symbol_ranges {decl : Declaration} {symbol : Symbol}
    (shown : Symbol.ofDeclaration? decl = some symbol) :
    symbol.range = .ofSpan decl.span ∧
      List.Forall₂ (fun entry member => member.range = .ofSpan entry.span) decl.entries
        symbol.members := by
  cases decl with
  | implementation => cases shown
  | module =>
      cases shown
      exact ⟨rfl, .nil⟩
  | type | function | operation | spec | refinement =>
      cases shown
      refine ⟨rfl, ?_⟩
      rw [Declaration.entries, List.forall₂_map_left_iff, List.forall₂_map_right_iff,
        List.forall₂_same]
      exact fun _ _ => rfl

theorem introduced_of_find? {items : List Item} {name : String} {decl : Declaration}
    (found : (declarationsByName items).find? name = some decl) :
    .declaration decl ∈ items ∧ decl.introduces? = some name := by
  have member : (name, decl) ∈ declarationsByName items := mem_of_lookup found
  exact Item.mem_of_firstNamed? (mem_declarationsByName.mp member).2

section Definitions

variable {session : Session} {uri text : String} {analysis : Analysis} {place : Place}

def definitionOf (analysis : Analysis) (word : String) : Option Range :=
  if word.isEmpty then none
  else (analysis.declarations.find? word).map fun decl => Range.ofSpan decl.span

theorem definition_open (known : session.find? uri = some analysis)
    (source : analysis.source = some text) :
    session.definition uri place =
      if place.isValid then .ok (definitionOf analysis (wordAt text place.line place.character))
      else .error .invalidPlace := by
  rw [Session.definition, Session.wordAt?, known]
  dsimp only
  rw [source]
  split <;> rfl

/-- An answer about a definition is the range of a declaration that introduces the word
at the place. -/
theorem exists_of_definition {range : Range} (known : session.find? uri = some analysis)
    (source : analysis.source = some text)
    (answer : session.definition uri place = .ok (some range)) :
    ∃ decl, analysis.declarations.find? (wordAt text place.line place.character) = some decl ∧
      range = .ofSpan decl.span := by
  rw [definition_open known source] at answer
  split at answer
  · have found := Except.ok.inj answer
    rw [definitionOf] at found
    split at found
    · cases found
    · obtain ⟨decl, looked, same⟩ := Option.map_eq_some_iff.mp found
      exact ⟨decl, looked, same.symm⟩
  · cases answer

end Definitions

/-! ### Analyses -/

/-- Every range of an analysis addresses the text of a node: those of the notices, of the
symbols with their members, and of the definitions that a session answers with.  A member
lies inside its symbol. -/
structure SoundRanges (uri text : String) (analysis : Analysis) : Prop where
  notices : ∀ notice ∈ analysis.notices, ∃ item located,
    item ∈ (Document.parse text uri).body ∧ item.Concerns located ∧
    notice = .ofDiagnostic located.toDiagnostic ∧
    notice.range.Addresses (.ofText text uri) located.span
  symbols : ∀ symbol ∈ analysis.symbols, ∃ decl,
    .declaration decl ∈ (Document.parse text uri).body ∧
    Symbol.ofDeclaration? decl = some symbol ∧
    symbol.range.Addresses (.ofText text uri) decl.span ∧
    List.Forall₂ (fun entry member => member.range.Addresses (.ofText text uri) entry.span ∧
      member.range.Inside symbol.range) decl.entries symbol.members
  definitions : ∀ (session : Session) place range, session.find? uri = some analysis →
    session.definition uri place = .ok (some range) → ∃ decl,
      .declaration decl ∈ (Document.parse text uri).body ∧
      decl.introduces? = some (wordAt text place.line place.character) ∧
      range.Addresses (.ofText text uri) decl.span

theorem analyze_soundRanges (uri text : String) :
    SoundRanges uri text (Checker.standard.analyze uri (some text)) := by
  have addresses : ∀ {span : Span}, span.Counted text →
      (Range.ofSpan span).Addresses (.ofText text uri) span :=
    fun counted => Range.addresses_ofSpan (.ofText text uri) counted
  have declared : ∀ {decl}, .declaration decl ∈ (Document.parse text uri).body →
      decl.span.Counted text := fun member =>
    Grammar.counted_of_item member (Grammar.span?_declaration _)
  refine ⟨?_, ?_, ?_⟩
  · intro notice member
    obtain ⟨diagnostic, listed, rfl⟩ := List.mem_map.mp member
    obtain ⟨located, found, rfl⟩ := List.mem_map.mp listed
    obtain ⟨item, within, concerns⟩ :=
      concerns_of_finding (fun _ declared => headName_of_mem_parse declared) found
    exact ⟨item, located, within, concerns, rfl,
      addresses (Grammar.counted_of_concerns within concerns)⟩
  · intro symbol member
    obtain ⟨item, within, shown⟩ := List.mem_filterMap.mp member
    cases item with
    | declaration decl =>
        obtain ⟨range, members⟩ := symbol_ranges shown
        refine ⟨decl, within, shown, ?_, ?_⟩
        · rw [range]
          exact addresses (declared within)
        · have both := (List.forall₂_and_left (p := fun entry => entry ∈ decl.entries) _ _).mpr
            ⟨fun _ => id, members⟩
          refine both.imp ?_
          rintro entry shownMember ⟨listed, same⟩
          have counted := Grammar.counted_of_stems
            ((Grammar.stemming_of_mem_parse within).entries entry listed) Grammar.NamedAt.spanned
          rw [same, range]
          exact ⟨addresses counted,
            Range.inside_ofSpan counted (declared within) (Grammar.entry_inside within listed)⟩
    | inferred | separator | statement | part => cases shown
  · intro session place range known answer
    obtain ⟨decl, found, rfl⟩ := exists_of_definition known rfl answer
    obtain ⟨within, introduced⟩ := introduced_of_find? found
    exact ⟨decl, within, introduced, addresses (declared within)⟩

end Editor

end SageNotation
