import SageNotation.Grammar.Documents

/-!
End marks.

The reader gets all tokens of a list, and any of them may be end marks.  This
module says where the first one stands, and that there is one once the list is
closed.  That the reader stops there is proved of its routines.
-/

namespace SageNotation

namespace Token

def StartsMark (tokens : List Token) : Prop :=
  ∃ mark later, tokens = mark :: later ∧ mark.kind = .eof

/-- The input is used up, or an end mark comes next. -/
def AtEnd (tokens : List Token) : Prop :=
  tokens = [] ∨ StartsMark tokens

theorem atEnd_cons {mark : Token} (ends : mark.kind = .eof) (later : List Token) :
    AtEnd (mark :: later) :=
  Or.inr ⟨mark, later, rfl, ends⟩

theorem AtEnd.kind_eq {first : Token} {rest : List Token} (atEnd : AtEnd (first :: rest)) :
    first.kind = .eof := by
  rcases atEnd with empty | ⟨mark, later, same, ends⟩
  · cases empty
  · rw [(List.cons.inj same).1]
    exact ends

theorem AtEnd.skipBlank {tokens : List Token} (atEnd : AtEnd tokens) :
    skipBlank tokens = tokens := by
  cases tokens with
  | nil => rfl
  | cons first rest =>
      have plain : ¬ first.isTrivia = true := by
        rw [isTrivia, atEnd.kind_eq]
        decide
      exact List.dropWhile_cons_of_neg plain

theorem AtEnd.dropOne {kind : Kind} {tokens : List Token} (atEnd : AtEnd tokens)
    (other : kind ≠ .eof) : dropOne kind tokens = tokens := by
  cases tokens with
  | nil => rfl
  | cons first rest => exact if_neg (atEnd.kind_eq ▸ other.symm)

end Token

namespace Grammar

open Token

/-! ### The first end mark -/

def beforeEnd (tokens : List Token) : List Token :=
  tokens.takeWhile (·.kind != .eof)

theorem kind_ne_eof_of_mem_beforeEnd {tokens : List Token} {token : Token}
    (member : token ∈ beforeEnd tokens) : token.kind ≠ .eof := by
  have going := List.all_eq_true.mp List.all_takeWhile token member
  exact bne_iff_ne.mp going

theorem beforeEnd_append {front : List Token} (unmarked : ∀ token ∈ front, token.kind ≠ .eof)
    (back : List Token) : beforeEnd (front ++ back) = front ++ beforeEnd back := by
  have going : ∀ token ∈ front, (token.kind != .eof) = true :=
    fun token member => bne_iff_ne.mpr (unmarked token member)
  rw [beforeEnd, List.takeWhile_append_of_pos going]
  rfl

theorem beforeEnd_append_mark {front : List Token} {mark : Token} (back : List Token)
    (unmarked : ∀ token ∈ front, token.kind ≠ .eof) (ends : mark.kind = .eof) :
    beforeEnd (front ++ mark :: back) = front := by
  have stops : (mark.kind != .eof) = false := bne_eq_false_iff_eq.mpr ends
  rw [beforeEnd_append unmarked, beforeEnd, List.takeWhile_cons, stops]
  exact List.append_nil front

theorem beforeEnd_unmarked {tokens : List Token} (unmarked : ∀ token ∈ tokens, token.kind ≠ .eof) :
    beforeEnd tokens = tokens := by
  have whole := beforeEnd_append unmarked []
  rw [List.append_nil] at whole
  exact whole.trans (List.append_nil tokens)

/-- A list without an end mark, or one divided at its first end mark. -/
theorem unmarked_or_split (tokens : List Token) :
    (∀ token ∈ tokens, token.kind ≠ .eof) ∨
      ∃ mark back, tokens = beforeEnd tokens ++ mark :: back ∧ mark.kind = .eof := by
  have divided : beforeEnd tokens ++ tokens.dropWhile (·.kind != .eof) = tokens :=
    List.takeWhile_append_dropWhile
  have stopped := List.head?_dropWhile_not (·.kind != .eof) tokens
  cases behind : tokens.dropWhile (·.kind != .eof) with
  | nil =>
      left
      intro token member
      rw [behind, List.append_nil] at divided
      rw [← divided] at member
      exact kind_ne_eof_of_mem_beforeEnd member
  | cons mark back =>
      right
      rw [behind] at divided stopped
      exact ⟨mark, back, divided.symm,
        by simpa only [List.head?_cons, bne_eq_false_iff_eq] using stopped⟩

/-! ### Closed lists -/

def lastStop (tokens : List Token) : Position :=
  (tokens.getLast?.map (·.span.stop)).getD .first

/-- Behind an end mark it does not count whether the list is closed. -/
theorem closed_append_mark (file : Option String) (front : List Token) (mark : Token)
    (back : List Token) : ∃ later, closed file (front ++ mark :: back) = front ++ mark :: later := by
  unfold closed
  split
  · rename_i last
    rw [List.getLast?_eq_none_iff] at last
    cases List.append_eq_nil_iff.mp last |>.2
  · split
    · exact ⟨back, rfl⟩
    · exact ⟨back ++ [_], by rw [List.append_assoc, List.cons_append]⟩

theorem closed_concat (file : Option String) (front : List Token) {mark : Token}
    (ends : mark.kind = .eof) : closed file (front ++ [mark]) = front ++ [mark] := by
  simp only [closed, List.getLast?_concat, ends, if_true]

theorem closed_unmarked (file : Option String) {tokens : List Token}
    (unmarked : ∀ token ∈ tokens, token.kind ≠ .eof) :
    ∃ source, closed file tokens = tokens ++ [endMark source (lastStop tokens)] := by
  unfold closed
  split
  · rename_i last
    rw [List.getLast?_eq_none_iff] at last
    subst last
    exact ⟨_, rfl⟩
  · rename_i token last
    rw [if_neg (unmarked token (List.mem_of_getLast? last))]
    refine ⟨token.span.file, ?_⟩
    rw [lastStop, last]
    rfl

/-- In a closed list an end mark stands behind the tokens before it. -/
theorem closed_split (file : Option String) (tokens : List Token) :
    ∃ mark later, closed file tokens = beforeEnd tokens ++ mark :: later ∧ mark.kind = .eof := by
  rcases unmarked_or_split tokens with unmarked | ⟨mark, back, same, ends⟩
  · obtain ⟨source, whole⟩ := closed_unmarked file unmarked
    exact ⟨_, [], whole.trans (by rw [beforeEnd_unmarked unmarked]), rfl⟩
  · obtain ⟨later, whole⟩ := closed_append_mark file (beforeEnd tokens) mark back
    rw [← same] at whole
    exact ⟨mark, later, whole, ends⟩

theorem nameOf_some {file : String} (named : file ≠ "") (tokens : List Token) :
    nameOf (some file) tokens = file := by
  unfold nameOf
  split
  · rename_i none
    cases none
  · rename_i empty
    exact False.elim (named (Option.some.inj empty))
  · rename_i given
    exact (Option.some.inj given).symm

end Grammar

end SageNotation
