import SageNotation.Proofs.Cut.Routines
import SageNotation.Proofs.Grammar.Coverage

/-!
The way of the reader through its tokens.

The reader stands at a place of the tokens, counted from the first one, and all of
them are before it, those behind an end mark too.  No routine takes it beyond the
first end mark or looks at what stands there.  `itemAt` is one call of the item
reader and `Walk` a sequence of such calls with the newlines and comments between
them: the body of a document is read on a walk from the first token to the first
end mark, on which every call moves forward.  The mark itself gives nothing to what
is read (`items_mark`), so what is said about the items of a text looks at the tokens
before it.
-/

namespace SageNotation

namespace Grammar

open Token

/-! ### Places -/

/-- The place of the first end mark; without one, that after the last token. -/
def endPlace (tokens : List Token) : Nat :=
  tokens.findIdx (·.kind == .eof)

theorem beforeEnd_eq_take (tokens : List Token) :
    beforeEnd tokens = tokens.take (endPlace tokens) := by
  rw [beforeEnd, List.takeWhile_eq_take_findIdx_not, endPlace]
  simp only [bne, Bool.not_not]

theorem endPlace_le (tokens : List Token) : endPlace tokens ≤ tokens.length :=
  List.findIdx_le_length

theorem length_beforeEnd (tokens : List Token) :
    (beforeEnd tokens).length = endPlace tokens := by
  rw [beforeEnd_eq_take, List.length_take, Nat.min_eq_left (endPlace_le tokens)]

theorem endPlace_append_mark {front : List Token} {mark : Token} (back : List Token)
    (unmarked : ∀ token ∈ front, token.kind ≠ .eof) (ends : mark.kind = .eof) :
    endPlace (front ++ mark :: back) = front.length := by
  rw [← length_beforeEnd, beforeEnd_append_mark back unmarked ends]

theorem drop_eq_append {tokens : List Token} {place : Nat} (within : place ≤ endPlace tokens) :
    tokens.drop place = (beforeEnd tokens).drop place ++ tokens.drop (endPlace tokens) := by
  have reaches : place ≤ (beforeEnd tokens).length := by
    rw [length_beforeEnd]
    exact within
  rw [← List.drop_append_of_le_length reaches, beforeEnd_eq_take, List.take_append_drop]

theorem startsMark_drop {tokens : List Token} (marked : endPlace tokens < tokens.length) :
    StartsMark (tokens.drop (endPlace tokens)) := by
  have ends : (tokens[endPlace tokens].kind == .eof) = true :=
    @List.findIdx_getElem Token (·.kind == .eof) tokens marked
  rw [List.drop_eq_getElem_cons marked]
  exact ⟨_, _, rfl, beq_iff_eq.mp ends⟩

theorem drop_of_suffix {tokens left : List Token} {place : Nat} (within : place ≤ endPlace tokens)
    (ahead : left <:+ (beforeEnd tokens).drop place) :
    place ≤ endPlace tokens - left.length ∧
      tokens.drop (endPlace tokens - left.length) = left ++ tokens.drop (endPlace tokens) := by
  have shorter := ahead.length_le
  rw [List.length_drop, length_beforeEnd] at shorter
  have behind := List.suffix_iff_eq_drop.mp (ahead.trans (List.drop_suffix place _))
  rw [length_beforeEnd] at behind
  refine ⟨by omega, ?_⟩
  rw [drop_eq_append (Nat.sub_le _ _), ← behind]

/-- Another list with the same tokens up to the first end mark. -/
def Agrees (tokens others : List Token) : Prop :=
  others.take (endPlace tokens + 1) = tokens.take (endPlace tokens + 1)

theorem Agrees.beforeEnd_eq {tokens others : List Token} (marked : endPlace tokens < tokens.length)
    (agrees : Agrees tokens others) :
    beforeEnd others = beforeEnd tokens ∧ endPlace others < others.length := by
  obtain ⟨mark, later, behind, ends⟩ := startsMark_drop marked
  have start : tokens.take (endPlace tokens + 1) = beforeEnd tokens ++ [mark] := by
    rw [List.take_add, behind, beforeEnd_eq_take]
    rfl
  have whole : others = beforeEnd tokens ++ mark :: others.drop (endPlace tokens + 1) := by
    have split := (List.take_append_drop (endPlace tokens + 1) others).symm
    rw [agrees, start, List.append_assoc, List.singleton_append] at split
    exact split
  have unmarked : ∀ token ∈ beforeEnd tokens, token.kind ≠ .eof :=
    fun _ => kind_ne_eof_of_mem_beforeEnd
  rw [whole]
  refine ⟨beforeEnd_append_mark _ unmarked ends, ?_⟩
  rw [endPlace_append_mark _ unmarked ends, List.length_append, List.length_cons]
  omega

/-! ### Calls of routines -/

/-- Two readings of the same value that leave the reader at the same place, no earlier
than the one it stood at and not beyond the first end mark. -/
structure Lands (tokens others : List Token) (place : Nat) {α : Type} {here there : List Token}
    (one : Reading α here) (other : Reading α there) : Prop where
  value : one.value = other.value
  next : ∃ next, place ≤ next ∧ next ≤ endPlace tokens ∧ one.rest = tokens.drop next ∧
    other.rest = others.drop next

/-- Called at a place up to the first end mark, a routine does the same whatever stands
behind the mark. -/
theorem Routine.lands {α : Type} {routine : (tokens : List Token) → Option (Reading α tokens)}
    (listed : Routine α routine) {tokens others : List Token} {place : Nat}
    (marked : endPlace tokens < tokens.length) (within : place ≤ endPlace tokens)
    (agrees : Agrees tokens others) :
    Option.Rel (Lands tokens others place) (routine (tokens.drop place))
      (routine (others.drop place)) := by
  obtain ⟨same, otherMarked⟩ := agrees.beforeEnd_eq marked
  have equal : endPlace others = endPlace tokens := by
    rw [← length_beforeEnd, same, length_beforeEnd]
  have here := listed.stops ((beforeEnd tokens).drop place) _ (startsMark_drop marked)
  have there := listed.stops ((beforeEnd others).drop place) _ (startsMark_drop otherMarked)
  rw [← drop_eq_append within] at here
  rw [← drop_eq_append (equal ▸ within), same] at there
  generalize routine (tokens.drop place) = one at here ⊢
  generalize routine (others.drop place) = other at there ⊢
  generalize routine ((beforeEnd tokens).drop place) = alone at here there
  cases here with
  | none =>
      cases there
      exact .none
  | @some one reading first =>
      cases there with
      | some second =>
          obtain ⟨forward, left⟩ := drop_of_suffix within reading.suffix
          have behind : reading.rest <:+ (beforeEnd others).drop place := by
            rw [same]
            exact reading.suffix
          have otherLeft := (drop_of_suffix (equal ▸ within) behind).2
          rw [equal] at otherLeft
          refine .some ⟨first.value.trans second.value.symm, _, forward, Nat.sub_le _ _, ?_, ?_⟩
          · rw [first.rest, left]
          · rw [second.rest, otherLeft, equal]

/-! ### Calls of the item reader -/

/-- One call of the item reader at a place of the tokens: the item, and the place of
the next token. -/
def itemAt (tokens : List Token) (place : Nat) : Option (Item × Nat) :=
  match tokens.drop place with
  | [] => none
  | first :: rest =>
      let one := item first rest
      some (one.value.1, tokens.length - one.rest.length)

theorem itemAt_of_drop {tokens : List Token} {place : Nat} {first : Token} {rest : List Token}
    (ahead : tokens.drop place = first :: rest) :
    itemAt tokens place =
      some ((item first rest).value.1, tokens.length - (item first rest).rest.length) := by
  rw [itemAt, ahead]

theorem drop_succ {tokens rest : List Token} {place : Nat} {first : Token}
    (ahead : tokens.drop place = first :: rest) : tokens.drop (place + 1) = rest := by
  rw [← List.tail_drop, ahead, List.tail_cons]

theorem lt_endPlace {tokens rest : List Token} {place : Nat} {first : Token}
    (ahead : tokens.drop place = first :: rest) (within : place ≤ endPlace tokens)
    (unmarked : first.kind ≠ .eof) : place < endPlace tokens := by
  refine Nat.lt_of_le_of_ne within ?_
  intro same
  have inside : endPlace tokens < tokens.length := by
    have nonempty := congrArg List.length ahead
    rw [List.length_drop, List.length_cons] at nonempty
    omega
  obtain ⟨mark, later, behind, ends⟩ := startsMark_drop inside
  rw [← same, ahead] at behind
  rw [(List.cons.inj behind).1] at unmarked
  exact unmarked ends

/-- The item reader goes forward, and from before the first end mark not beyond it. -/
theorem item_lands {tokens rest : List Token} {place : Nat} {first : Token}
    (marked : endPlace tokens < tokens.length) (ahead : tokens.drop place = first :: rest)
    (before : place < endPlace tokens) :
    ∃ next, place < next ∧ next ≤ endPlace tokens ∧ (item first rest).rest = tokens.drop next ∧
      tokens.length - (item first rest).rest.length = next := by
  have agrees : Agrees tokens tokens := rfl
  have lands := (Routine.item first).lands marked before agrees
  rw [drop_succ ahead] at lands
  cases lands with
  | some same =>
      obtain ⟨next, forward, within, left, _⟩ := same.next
      refine ⟨next, forward, within, left, ?_⟩
      rw [left, List.length_drop]
      omega

theorem item_stamped (first : Token) (tokens : List Token) :
    (item first tokens).value.1.span? = some (first.through tokens (item first tokens).rest) := by
  obtain ⟨make, frames, same⟩ := item_framed first tokens
  rw [Item.span?, same]
  exact frames.stamped _

/-! ### The whole way -/

/-- The calls by which a body is read from a place on, up to the first end mark.
Each of them is made at a significant token. -/
inductive Walk (tokens : List Token) : Nat → List Item → Prop where
  | ended : Walk tokens (endPlace tokens) []
  | blank {place : Nat} {token : Token} {nodes : List Item} (here : tokens[place]? = some token)
      (trivia : token.isTrivia = true) (further : Walk tokens (place + 1) nodes) :
      Walk tokens place nodes
  | item {place next : Nat} {token : Token} {node : Item} {nodes : List Item}
      (here : tokens[place]? = some token) (significant : token.isSignificant = true)
      (read : itemAt tokens place = some (node, next)) (further : Walk tokens next nodes) :
      Walk tokens place (node :: nodes)

theorem getElem?_of_drop {tokens rest : List Token} {place : Nat} {first : Token}
    (ahead : tokens.drop place = first :: rest) : tokens[place]? = some first := by
  rw [← List.head?_drop, ahead, List.head?_cons]

theorem isSignificant_of_plain {token : Token} (plain : ¬ token.isTrivia = true)
    (unmarked : token.kind ≠ .eof) : token.isSignificant = true := by
  rw [isTrivia] at plain
  rw [isSignificant, eq_false_of_ne_true plain, bne_iff_ne.mpr unmarked]
  rfl

theorem isSignificant_of_mem_beforeEnd {tokens : List Token} {token : Token}
    (member : token ∈ beforeEnd tokens) (plain : token.isTrivia = false) :
    token.isSignificant = true :=
  isSignificant_of_plain (ne_true_of_eq_false plain) (kind_ne_eof_of_mem_beforeEnd member)

/-- From every place up to the first end mark the reader walks to the mark. -/
theorem walk_items {tokens : List Token} (marked : endPlace tokens < tokens.length)
    (left : List Token) (place : Nat) (ahead : tokens.drop place = left)
    (within : place ≤ endPlace tokens) : Walk tokens place (items left).value.1 := by
  -- The induction is that of the loop over items; the place follows what is left.
  induction left using items.induct generalizing place with
  | case1 =>
      rw [List.drop_eq_nil_iff] at ahead
      omega
  | case2 first rest trivia ih =>
      have unmarked : first.kind ≠ .eof := by
        intro mark
        rw [isTrivia, mark] at trivia
        cases trivia
      rw [items_trivia trivia]
      apply Walk.blank (getElem?_of_drop ahead) trivia
      exact ih _ (drop_succ ahead) (lt_endPlace ahead within unmarked)
  | case3 first rest plain ends =>
      have last : place = endPlace tokens := by
        refine Nat.le_antisymm within (Nat.not_lt.mp fun before => ?_)
        have here := List.not_of_lt_findIdx before
        rw [List.getElem_of_getElem? (getElem?_of_drop ahead) |>.2] at here
        rw [beq_iff_eq.mpr ends] at here
        cases here
      rw [items_atMark ends, last]
      exact .ended
  | case4 first rest plain unmarked one ih =>
      obtain ⟨next, _, further, left, same⟩ :=
        item_lands marked ahead (lt_endPlace ahead within unmarked)
      rw [(items_plain plain unmarked rest).1]
      apply Walk.item (getElem?_of_drop ahead) (isSignificant_of_plain plain unmarked)
        (itemAt_of_drop ahead)
      rw [same]
      exact ih _ left.symm further

theorem exists_of_mem_items {tokens : List Token} {node : Item}
    (member : node ∈ (items tokens).value.1) :
    ∃ first rest, first :: rest <:+ tokens ∧ first.isTrivia = false ∧
      (item first rest).value.1 = node := by
  induction tokens using items.induct with
  | case1 =>
      rw [items] at member
      cases member
  | case2 first rest trivia ih =>
      rw [items_trivia trivia] at member
      obtain ⟨token, others, ahead, plain, read⟩ := ih member
      exact ⟨token, others, suffix_cons_of_suffix first ahead, plain, read⟩
  | case3 first rest plain ends =>
      rw [items_atMark ends] at member
      cases member
  | case4 first rest plain unmarked one ih =>
      rw [(items_plain plain unmarked rest).1] at member
      rcases List.mem_cons.mp member with same | later
      · exact ⟨first, rest, List.suffix_rfl, eq_false_of_ne_true plain, same.symm⟩
      · obtain ⟨token, others, ahead, shown, read⟩ := ih later
        exact ⟨token, others, suffix_cons_of_suffix first (ahead.trans one.suffix), shown, read⟩

theorem exists_of_mem_parse {source file : String} {node : Item}
    (member : node ∈ (Document.parse source file).body) :
    ∃ first rest, first :: rest <:+ beforeEnd (tokenize source file) ∧ first.isTrivia = false ∧
      (item first rest).value.1 = node := by
  rw [body_parse] at member
  exact exists_of_mem_items member

/-- Each item has a significant first token of its own. -/
theorem length_items_le (tokens : List Token) :
    (items tokens).value.1.length ≤ tokens.countP isSignificant := by
  induction tokens using items.induct with
  | case1 =>
      rw [items]
      exact Nat.le_refl _
  | case2 first rest trivia ih =>
      rw [items_trivia trivia]
      exact Nat.le_trans ih (List.sublist_cons_self first rest).countP_le
  | case3 first rest plain ends =>
      rw [items_atMark ends]
      exact Nat.zero_le _
  | case4 first rest plain unmarked one ih =>
      have fewer : one.rest.countP isSignificant ≤ rest.countP isSignificant :=
        one.suffix.sublist.countP_le
      have counted := isSignificant_of_plain plain unmarked
      rw [(items_plain plain unmarked rest).1, List.length_cons, List.countP_cons, if_pos counted]
      exact Nat.succ_le_succ (Nat.le_trans ih fewer)

/-- What reading owes to every closed list of tokens.  There is an end mark in it.  A
routine that is called at a place up to the first mark looks at nothing behind the
mark, whether it answers or not, and leaves the reader at a place no earlier and not
beyond the mark.  A call of the item reader at a token other than an end mark gives a
node and goes forward.  The body is read on a walk of such calls over all tokens
before the first mark. -/
structure Progresses (tokens : List Token) (body : List Item) : Prop where
  marked : endPlace tokens < tokens.length
  stops : ∀ (α : Type) (routine : (tokens : List Token) → Option (Reading α tokens)),
    Routine α routine → ∀ place ≤ endPlace tokens, ∀ others, Agrees tokens others →
      Option.Rel (Lands tokens others place) (routine (tokens.drop place))
        (routine (others.drop place))
  calls : ∀ place token, tokens[place]? = some token → token.kind ≠ .eof →
    ∃ node next span, itemAt tokens place = some (node, next) ∧ node.span? = some span ∧
      place < next ∧ (place < endPlace tokens → next ≤ endPlace tokens)
  walks : Walk tokens 0 body

theorem progresses_items {tokens : List Token} (marked : endPlace tokens < tokens.length) :
    Progresses tokens (items tokens).value.1 := by
  refine ⟨marked, ?_, ?_, walk_items marked tokens 0 rfl (Nat.zero_le _)⟩
  · intro α routine listed place within others agrees
    exact listed.lands marked within agrees
  · intro place token here unmarked
    have inside := (List.getElem?_eq_some_iff.mp here).1
    have ahead := List.drop_eq_getElem_cons inside
    rw [List.getElem_of_getElem? here |>.2] at ahead
    refine ⟨_, _, _, itemAt_of_drop ahead, item_stamped token _, ?_, ?_⟩
    · have shorter := (item token (tokens.drop (place + 1))).length_le
      rw [List.length_drop] at shorter
      omega
    · intro before
      obtain ⟨next, _, within, _, same⟩ := item_lands marked ahead before
      rw [same]
      exact within

theorem ofTokens_progresses (tokens : List Token) (file : Option String) :
    Progresses (closed file tokens) (Document.ofTokens tokens file).body ∧
      (Document.ofTokens tokens file).body.length ≤
        (tokens.take (endPlace tokens)).countP isSignificant := by
  obtain ⟨mark, later, split, ends⟩ := closed_split file tokens
  constructor
  · apply progresses_items
    rw [split, endPlace_append_mark later (fun _ => kind_ne_eof_of_mem_beforeEnd) ends,
      List.length_append, List.length_cons]
    omega
  · rw [body_ofTokens, ← beforeEnd_eq_take]
    exact length_items_le (beforeEnd tokens)

/-! ### Behind the first end mark -/

theorem ofTokens_named {tokens before later : List Token} {file : String} {mark : Token}
    (named : file ≠ "") (split : closed (some file) tokens = before ++ mark :: later)
    (ends : mark.kind = .eof) (unmarked : ∀ token ∈ before, token.kind ≠ .eof) :
    Document.ofTokens tokens (some file) =
      { body := (items before).value.1, span := ⟨file, .first, mark.span.stop⟩ } := by
  rw [ofTokens_eq split ends unmarked, nameOf_some named]

/-- Nothing behind the first end mark is looked at, and a list without one is read
as if it had one at the end of its last token. -/
theorem ofTokens_up_to_end (tokens : List Token) (file : String) (named : file ≠ "") :
    ((∃ token ∈ tokens, token.kind = .eof) →
      Document.ofTokens tokens (some file) =
          Document.ofTokens (tokens.take (endPlace tokens + 1)) (some file) ∧
        Document.recoveries tokens = Document.recoveries (tokens.take (endPlace tokens + 1))) ∧
    ((∀ token ∈ tokens, token.kind ≠ .eof) → ∀ source : String,
      Document.ofTokens tokens (some file) =
          Document.ofTokens (tokens ++ [endMark source (lastStop tokens)]) (some file) ∧
        Document.recoveries tokens =
          Document.recoveries (tokens ++ [endMark source (lastStop tokens)])) := by
  have before : ∀ token ∈ beforeEnd tokens, token.kind ≠ .eof :=
    fun _ => kind_ne_eof_of_mem_beforeEnd
  constructor
  · rintro ⟨token, member, isMark⟩
    rcases unmarked_or_split tokens with unmarked | ⟨mark, back, same, ends⟩
    · exact False.elim (unmarked token member isMark)
    · have cut : tokens.take (endPlace tokens + 1) = beforeEnd tokens ++ [mark] := by
        calc tokens.take (endPlace tokens + 1)
            = (beforeEnd tokens ++ mark :: back).take ((beforeEnd tokens).length + 1) := by
              rw [length_beforeEnd, ← same]
          _ = beforeEnd tokens ++ [mark] := by
              rw [List.take_length_add_append]
              rfl
      obtain ⟨later, whole⟩ := closed_append_mark (some file) (beforeEnd tokens) mark back
      obtain ⟨other, part⟩ := closed_append_mark (some file) (beforeEnd tokens) mark []
      rw [← same] at whole
      rw [cut, ofTokens_named named whole ends before, ofTokens_named named part ends before,
        recoveries_eq, recoveries_eq, beforeEnd_append_mark [] before ends]
      exact ⟨rfl, rfl⟩
  · intro unmarked source
    obtain ⟨other, whole⟩ := closed_unmarked (some file) unmarked
    obtain ⟨later, part⟩ :=
      closed_append_mark (some file) tokens (endMark source (lastStop tokens)) []
    rw [ofTokens_named named whole rfl unmarked, ofTokens_named named part rfl unmarked,
      recoveries_eq, recoveries_eq, beforeEnd_append_mark [] unmarked rfl,
      beforeEnd_unmarked unmarked]
    exact ⟨rfl, rfl⟩

def moduleBehindEnd : List Token :=
  [(Kind.declare .mod, "@mod"), (.identifier, "M"), (.eof, ""), (.declare .mod, "@mod"),
    (.identifier, "N")].map fun (kind, value) => ⟨kind, value, ⟨"<input>", .first, .first⟩⟩

theorem ofTokens_up_to_end_of_module :
    (Document.ofTokens moduleBehindEnd (some "m.sage") =
        Document.ofTokens (moduleBehindEnd.take 3) (some "m.sage") ∧
      Document.recoveries moduleBehindEnd = Document.recoveries (moduleBehindEnd.take 3)) ∧
    (Document.ofTokens (moduleBehindEnd.take 2) (some "m.sage") =
        Document.ofTokens (moduleBehindEnd.take 2 ++ [endMark "n.sage" .first]) (some "m.sage") ∧
      Document.recoveries (moduleBehindEnd.take 2) =
        Document.recoveries (moduleBehindEnd.take 2 ++ [endMark "n.sage" .first])) :=
  ⟨(ofTokens_up_to_end moduleBehindEnd "m.sage" (by decide)).1 (by decide),
    (ofTokens_up_to_end (moduleBehindEnd.take 2) "m.sage" (by decide)).2 (by decide) "n.sage"⟩

end Grammar

end SageNotation
