import SageNotation.Proofs.Cut.Documents
import SageNotation.Proofs.Grammar.Nodes
import Mathlib.Logic.ExistsUnique

/-!
Documents and the tokens they are read from.

Reading a document goes through the tokens once: each item takes the tokens from
its first one on up to where the next item starts.  When the tokens are laid in
a text, the items therefore share out the significant tokens among them, and
the spans of the whole tree are nested.
-/

namespace SageNotation

open Token

namespace Item

def span? (item : Item) : Option Span :=
  item.toTree.span?

end Item

namespace Grammar

/-! ### Tokens of a text -/

theorem beforeEnd_endMark (file : String) (position : Position) :
    beforeEnd [endMark file position] = [] := rfl

theorem tokenize_eq (source file : String) :
    tokenize source file = beforeEnd (tokenize source file) ++
      [endMark file (Position.first.after source.toList)] := by
  obtain ⟨front, same, unmarked, _⟩ := scan_laid file .first source.toList
  rw [tokenize, same, beforeEnd_append unmarked, beforeEnd_endMark, List.append_nil]

theorem inOrder_tokenize (source file : String) :
    InOrder (Between file) 0 source.length (beforeEnd (tokenize source file)) := by
  obtain ⟨front, same, unmarked, ordered⟩ := scan_laid file .first source.toList
  have stop : Position.first.offset + source.length = source.length := Int.zero_add _
  rw [Position.offset_after, String.length_toList, stop] at ordered
  rw [tokenize, same, beforeEnd_append unmarked, beforeEnd_endMark, List.append_nil]
  exact ordered

theorem laid_tokenize (source file : String) :
    Laid file 0 source.length (beforeEnd (tokenize source file)) :=
  Laid.of_inOrder (inOrder_tokenize source file) fun _ => kind_ne_eof_of_mem_beforeEnd

theorem mem_beforeEnd {source file : String} {token : Token} :
    token ∈ beforeEnd (tokenize source file) ↔
      token ∈ tokenize source file ∧ token.kind ≠ .eof := by
  constructor
  · intro member
    exact ⟨(List.takeWhile_subset _) member, kind_ne_eof_of_mem_beforeEnd member⟩
  · rintro ⟨member, notMark⟩
    rw [tokenize_eq] at member
    rcases List.mem_append.mp member with within | last
    · exact within
    · rw [List.mem_singleton.mp last] at notMark
      exact False.elim (notMark rfl)

theorem body_parse (source file : String) :
    (Document.parse source file).body = (items (beforeEnd (tokenize source file))).value.1 :=
  body_ofTokens _ _

/-! ### Items share out the tokens -/

/-- A span that starts where a significant token starts and stops where one stops. -/
structure Bounded (tokens : List Token) (span : Span) : Prop where
  start : ∃ token ∈ tokens, token.isSignificant = true ∧ span.start = token.span.start
  stop : ∃ token ∈ tokens, token.isSignificant = true ∧ span.stop = token.span.stop

theorem Bounded.mono {tokens larger : List Token} {span : Span} (bounded : Bounded tokens span)
    (within : ∀ token ∈ tokens, token ∈ larger) : Bounded larger span := by
  obtain ⟨⟨first, firstMember, firstAt⟩, last, lastMember, lastAt⟩ := bounded
  exact ⟨⟨first, within first firstMember, firstAt⟩, last, within last lastMember, lastAt⟩

/-- The span of an item covers the tokens that were read for it. -/
theorem extent_covers {file : String} {low high : Int} {first : Token} {run : List Token}
    (plain : first.isTrivia = false) (laid : Laid file low high (first :: run)) :
    Bounded (first :: run) (extent first run) ∧
      ∀ token ∈ first :: run, token.isSignificant = true →
        token.span.Inside (extent first run) := by
  have spans := spans_of_laid plain laid
  have firstAt := laid.isSignificant_of_mem List.mem_cons_self plain
  refine ⟨⟨⟨first, List.mem_cons_self, firstAt, rfl⟩, spans.last⟩, ?_⟩
  intro token member significant
  have here := spans.within.stands_of_mem (widens_stands file) member
  obtain ⟨_, between⟩ := here (isTrivia_of_isSignificant significant)
  exact ⟨between.named.trans spans.between.named.symm, between.after, between.before⟩

/-- An item between two offsets: its tree fits there, and its span covers the
tokens that were read for it and no others. -/
structure Settles (file : String) (low high : Int) (run : List Token) (item : Item)
    (span : Span) : Prop where
  stamped : item.span? = some span
  fits : item.toTree.Fits file low high
  bounded : Bounded run span
  covers : ∀ token ∈ run, token.isSignificant = true → token.span.Inside span

theorem item_settles {file : String} {low high : Int} {first : Token} {tokens : List Token}
    (plain : first.isTrivia = false)
    (laid : Laid file low high (first :: between tokens (item first tokens).rest)) :
    Settles file low high (first :: between tokens (item first tokens).rest)
      (item first tokens).value.1 (first.through tokens (item first tokens).rest) := by
  obtain ⟨make, frames, same⟩ := item_framed first tokens
  obtain ⟨bounded, covers⟩ := extent_covers plain laid
  have spans := spans_of_laid plain laid
  refine ⟨?_, ?_, bounded, covers⟩
  · rw [Item.span?, same]
    exact frames.stamped _
  · rw [same]
    exact frames.fits spans.between spans.within.tail

/-- The items read from a run, with their spans. -/
structure Accounts (file : String) (low high : Int) (tokens : List Token) (items : List Item)
    (spans : List Span) : Prop where
  stamped : items.map Item.span? = spans.map some
  fits : InOrder (Tree.Fits file) low high (items.map Item.toTree)
  ordered : InOrder (Span.Between file) low high spans
  bounded : ∀ span ∈ spans, Bounded tokens span
  covers : ∀ token ∈ tokens, token.isSignificant = true → ∃ span ∈ spans, token.span.Inside span

namespace Accounts

variable {file : String} {low middle high : Int} {first : Token} {tokens run : List Token}
  {items : List Item} {spans : List Span}

theorem skip (accounts : Accounts file low high tokens items spans)
    (trivia : first.isTrivia = true) : Accounts file low high (first :: tokens) items spans := by
  refine ⟨accounts.stamped, accounts.fits, accounts.ordered, ?_, ?_⟩
  · intro span member
    exact (accounts.bounded span member).mono fun token => List.mem_cons_of_mem first
  · intro token member significant
    rcases List.mem_cons.mp member with same | later
    · rw [← same, isTrivia_of_isSignificant significant] at trivia
      cases trivia
    · exact accounts.covers token later significant

theorem cons {one : Item} {span : Span} (here : Settles file low middle run one span)
    (accounts : Accounts file middle high tokens items spans) (lower : low ≤ middle) :
    Accounts file low high (run ++ tokens) (one :: items) (span :: spans) := by
  refine ⟨?_, ⟨middle, lower, here.fits, accounts.fits⟩, ⟨middle, lower, ?_, accounts.ordered⟩,
    ?_, ?_⟩
  · rw [List.map_cons, List.map_cons, here.stamped, accounts.stamped]
  · exact Tree.between_of_fits here.fits here.stamped
  · intro other member
    rcases List.mem_cons.mp member with same | later
    · rw [same]
      exact here.bounded.mono fun token => List.mem_append_left tokens
    · exact (accounts.bounded other later).mono fun token => List.mem_append_right run
  · intro token member significant
    rcases List.mem_append.mp member with early | late
    · exact ⟨span, List.mem_cons_self, here.covers token early significant⟩
    · obtain ⟨other, within, inside⟩ := accounts.covers token late significant
      exact ⟨other, List.mem_cons_of_mem span within, inside⟩

end Accounts

/-- The items of a run account for all of its tokens. -/
theorem items_account {file : String} {low high : Int} {tokens : List Token}
    (laid : Laid file low high tokens) :
    ∃ spans, Accounts file low high tokens (items tokens).value.1 spans := by
  fun_induction items tokens generalizing low with
  | case1 =>
      refine ⟨[], rfl, laid, laid, ?_, ?_⟩
      · intro span member
        cases member
      · intro token member
        cases member
  | case2 first rest trivia ih =>
      obtain ⟨spans, accounts⟩ := ih laid.tail
      exact ⟨spans, accounts.skip trivia⟩
  | case3 first rest plain ends =>
      have significant := laid.isSignificant_of_mem List.mem_cons_self (eq_false_of_ne_true plain)
      exact False.elim (kind_ne_eof_of_isSignificant significant ends)
  | case4 first rest plain unmarked one others ih =>
      -- The tokens of the first item come before those of the others.
      have divided := between_append_rest one.suffix
      rw [← divided, ← List.cons_append] at laid
      obtain ⟨middle, front, back⟩ := laid.split
      obtain ⟨spans, accounts⟩ := ih back
      have here := item_settles (eq_false_of_ne_true plain) front
      have together := accounts.cons here front.le
      rw [List.cons_append, divided] at together
      exact ⟨_, together⟩

/-! ### Documents -/

/-- Spans that share out the significant tokens of a text: each token lies inside
the span at exactly one place of the list. -/
structure Shares (tokens : List Token) (spans : List Span) : Prop where
  ordered : spans.Pairwise fun front back =>
    front.start.offset < back.start.offset ∧ front.Precedes back
  bounded : ∀ span ∈ spans, Bounded tokens span
  once : ∀ token ∈ tokens, token.isSignificant = true →
    ∃! index : Fin spans.length, token.span.Inside (spans.get index)

theorem precedes_of_inOrder {file : String} {low high : Int} {spans : List Span}
    (ordered : InOrder (Span.Between file) low high spans) :
    spans.Pairwise fun front back =>
      front.start.offset < back.start.offset ∧ front.Precedes back := by
  apply ordered.pairwise (Span.widens_between file)
  intro front back lower middle upper before after
  have apart := Span.precedes_of_between before after
  exact ⟨Int.lt_of_lt_of_le before.nonempty apart, apart⟩

theorem index_unique {spans : List Span} {inner : Span}
    (apart : spans.Pairwise Span.Precedes) (nonempty : inner.start.offset < inner.stop.offset)
    {left right : Fin spans.length} (inLeft : inner.Inside (spans.get left))
    (inRight : inner.Inside (spans.get right)) : left = right := by
  have never : ∀ {one other : Fin spans.length}, inner.Inside (spans.get one) →
      inner.Inside (spans.get other) → ¬ one < other := by
    intro one other inOne inOther before
    have precedes : (spans.get one).stop.offset ≤ (spans.get other).start.offset :=
      List.pairwise_iff_getElem.mp apart one other one.isLt other.isLt before
    have stop := inOne.stop
    have start := inOther.start
    omega
  exact Fin.le_antisymm (Fin.not_lt.mp (never inRight inLeft)) (Fin.not_lt.mp (never inLeft inRight))

/-- Every significant token of a text lies inside the span of exactly one item of
the document, and the spans run from token to token. -/
theorem parse_shares_tokens (source file : String) :
    ∃ spans, (Document.parse source file).body.map Item.span? = spans.map some ∧
      Shares (tokenize source file) spans := by
  have laid := laid_tokenize source file
  obtain ⟨spans, accounts⟩ := items_account laid
  have ordered := precedes_of_inOrder accounts.ordered
  refine ⟨spans, ?_, ordered, ?_, ?_⟩
  · rw [body_parse]
    exact accounts.stamped
  · intro span member
    exact (accounts.bounded span member).mono fun token within => (mem_beforeEnd.mp within).1
  · intro token member significant
    have plain := isTrivia_of_isSignificant significant
    have here := mem_beforeEnd.mpr ⟨member, kind_ne_eof_of_isSignificant significant⟩
    obtain ⟨_, between⟩ := laid.stands_of_mem (widens_stands file) here plain
    obtain ⟨span, within, inside⟩ := accounts.covers token here significant
    obtain ⟨index, same⟩ := List.get_of_mem within
    refine ⟨index, ?_, ?_⟩
    · change token.span.Inside (spans.get index)
      rw [same]
      exact inside
    · intro other inOther
      rw [← same] at inside
      exact index_unique (ordered.imp And.right) between.nonempty inOther inside

theorem span_parse (source file : String) :
    (Document.parse source file).span = ⟨file, .first, Position.first.after source.toList⟩ := by
  have last : (tokenize source file).getLast? =
      some (endMark file (Position.first.after source.toList)) := by
    rw [tokenize_eq, List.getLast?_concat]
  have whole : closed (some file) (tokenize source file) = tokenize source file := by
    rw [tokenize_eq]
    exact closed_concat _ _ rfl
  have name : nameOf (some file) (tokenize source file) = file := by
    unfold nameOf
    split
    · rename_i none
      cases none
    · rename_i empty
      rw [last, Option.some.inj empty]
      rfl
    · rename_i given
      exact (Option.some.inj given).symm
  have split := whole.trans (tokenize_eq source file)
  rw [Document.parse, ofTokens_eq split rfl fun _ => kind_ne_eof_of_mem_beforeEnd, whole, name]
  rfl

/-- A document over its whole text, each node inside the one around it and the
nodes of every list one after another. -/
structure Nested (source file : String) (document : Document) : Prop where
  start : document.span.start.offset = 0
  stop : document.span.stop.offset = source.length
  nodes : ∀ label fields span, document.toTree.Reaches (.node label fields span) →
    span.file = file ∧
    (span.start.offset < span.stop.offset ∨ .node label fields span = document.toTree) ∧
    Tree.Encloses span fields

theorem parse_nested (source file : String) :
    Nested source file (Document.parse source file) := by
  generalize parsed : Document.parse source file = document
  have whole : document.span = ⟨file, .first, Position.first.after source.toList⟩ := by
    rw [← parsed, span_parse]
  have start : document.span.start.offset = 0 := by
    rw [whole]
    rfl
  have stop : document.span.stop.offset = source.length := by
    rw [whole, Position.offset_after, String.length_toList]
    exact Int.zero_add _
  have named : document.span.file = file := by
    rw [whole]
  obtain ⟨spans, accounts⟩ := items_account (laid_tokenize source file)
  have listed : (Tree.list (document.body.map Item.toTree)).Fits document.span.file
      document.span.start.offset document.span.stop.offset := by
    simp only [Tree.Fits, Tree.itemsFit_iff]
    rw [named, start, stop, ← parsed, body_parse]
    exact accounts.fits
  refine ⟨start, stop, ?_⟩
  intro label fields span reached
  rcases Tree.reaches_node_cases reached with same | ⟨name, value, member, further⟩
  · obtain ⟨rfl, rfl, rfl⟩ := Tree.node.inj same
    refine ⟨named, Or.inr rfl, Tree.encloses_of_fieldsFit ?_⟩
    simp only [Tree.FieldsFit]
    exact ⟨listed, trivial⟩
  · obtain ⟨-, rfl⟩ := Prod.mk.inj (List.mem_singleton.mp member)
    obtain ⟨between, encloses⟩ := Tree.nested_of_reaches listed further
    exact ⟨between.named.trans named, Or.inl between.nonempty, encloses⟩

end Grammar

end SageNotation
