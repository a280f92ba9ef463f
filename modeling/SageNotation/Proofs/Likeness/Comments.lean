import Mathlib.Data.List.Chain
import SageNotation.Proofs.Document.Faithful
import SageNotation.Proofs.Grammar.Progress
import SageNotation.Proofs.Likeness.Documents

/-!
Documents without their comments.

A comment runs to the end of its line, so in the tokens of a text a newline or
the end mark comes right after it.  Runs of this shape are like those without
their comments, spans included, and where there is no implementation both make
the same document.
-/

namespace SageNotation

namespace Token

/-- Every comment is the last token of its line. -/
def CommentsLast (tokens : List Token) : Prop :=
  tokens.IsChain fun token next => token.kind = .comment → next.kind = .newline ∨ next.kind = .eof

theorem scan_after_comment {file : String} {position : Position} {rest : List Char} {next : Token}
    (starts : next ∈ (scan file position (rest.dropWhile (· != '\n'))).head?) :
    next.kind = .newline ∨ next.kind = .eof := by
  have stopped := List.head?_dropWhile_not (· != '\n') rest
  cases behind : rest.dropWhile (· != '\n') with
  | nil =>
      rw [behind, scan] at starts
      cases starts
      exact Or.inr rfl
  | cons character others =>
      rw [behind] at starts stopped
      have newline : character = '\n' := by simpa using stopped
      subst newline
      have found : (lexeme '\n' others).kind = some .newline := rfl
      rw [scan_cut found] at starts
      cases starts
      exact Or.inl rfl

theorem commentsLast_scan (file : String) (position : Position) (text : List Char) :
    CommentsLast (scan file position text) := by
  unfold CommentsLast
  induction position, text using scan_induction with
  | empty position =>
      rw [scan]
      exact List.IsChain.singleton _
  | passed position first rest found ih =>
      rw [scan_passed found]
      exact ih
  | token position first rest kind found ih =>
      rw [scan_cut found]
      refine List.IsChain.cons ih ?_
      rintro next starts (comment : kind = .comment)
      subst comment
      rw [(divided_by_run found rfl).2] at starts
      exact scan_after_comment starts

end Token

namespace Grammar

open Token

/-- A run and the same run without its comments, where no implementation is opened. -/
def withoutComments : Likeness where
  token first other := first = other ∧ first.kind ≠ .comment ∧ first.kind ≠ .declare .impl
  omits := True
  view := id
  kind same := congrArg Token.kind same.1
  value same := congrArg Token.value same.1
  continues same := congrArg continuesMapping same.1
  extent := by
    intro first other run others same runs
    have whole : run = others := by
      induction runs with
      | nil => rfl
      | cons here _ ih => rw [here.1, ih]
    rw [same.1, whole]
  kept _ same := same.2

theorem mirrors_without_comments {tokens : List Token} (last : CommentsLast tokens)
    (unmarked : ∀ token ∈ tokens, token.kind ≠ .eof)
    (closed : ∀ token ∈ tokens, token.kind ≠ .declare .impl) :
    withoutComments.Mirrors tokens (tokens.filter (·.kind != .comment)) := by
  induction tokens with
  | nil => exact .nil
  | cons first rest ih =>
      have chain := List.isChain_cons.mp last
      have others := ih chain.2 (fun token member => unmarked token (List.mem_cons_of_mem _ member))
        fun token member => closed token (List.mem_cons_of_mem _ member)
      by_cases comment : first.kind = .comment
      · rw [List.filter_cons, if_neg (by simp [comment])]
        refine .omitted trivial comment ?_ others
        intro next starts
        have member := List.mem_cons_of_mem first (List.mem_of_mem_head? starts)
        exact (chain.1 next starts comment).resolve_right (unmarked next member)
      · rw [List.filter_cons, if_pos (bne_iff_ne.mpr comment)]
        exact .cons ⟨rfl, comment, closed first List.mem_cons_self⟩ others

theorem items_without_comments {tokens : List Token} (last : CommentsLast tokens)
    (unmarked : ∀ token ∈ tokens, token.kind ≠ .eof)
    (closed : ∀ token ∈ tokens, token.kind ≠ .declare .impl) :
    (items (tokens.filter (·.kind != .comment))).value.1 = (items tokens).value.1 := by
  have seen := Likeness.items_parallel (mirrors_without_comments last unmarked closed).follows
  have same : List.Forall₂ Eq (items tokens).value.1
      (items (tokens.filter (·.kind != .comment))).value.1 := by
    refine seen.imp fun item other alike => Item.toTree_inj.mp ?_
    unfold Likeness.Sees at alike
    rwa [withoutComments, Tree.viewed_id, Tree.viewed_id] at alike
  rw [List.forall₂_eq_eq_eq] at same
  exact same.symm

/-- Comments leave no mark on the document of a text without implementations. -/
theorem ofTokens_without_comments {source file : String}
    (closed : ∀ token ∈ tokenize source file, token.kind ≠ .declare .impl) (name : Option String) :
    Document.ofTokens ((tokenize source file).filter (·.kind != .comment)) name =
      Document.ofTokens (tokenize source file) name := by
  have chain : CommentsLast (tokenize source file) := commentsLast_scan file .first source.toList
  obtain ⟨front, same, unmarked, _⟩ := scan_laid file .first source.toList
  rw [← tokenize] at same
  rw [same] at chain closed ⊢
  have body := items_without_comments (List.isChain_append.mp chain).1 unmarked
    fun token member => closed token (List.mem_append_left _ member)
  have filtered : ∀ token ∈ front.filter (·.kind != .comment), token.kind ≠ .eof :=
    fun token member => unmarked token (List.mem_of_mem_filter member)
  generalize marked : endMark file (Position.first.after source.toList) = mark
  have ends : mark.kind = .eof := by
    rw [← marked]
    rfl
  have left : (front ++ [mark]).filter (·.kind != .comment) =
      front.filter (·.kind != .comment) ++ [mark] := by
    rw [List.filter_append, List.filter_cons, ends]
    rfl
  have whole := closed_concat name front ends
  have part := closed_concat name (front.filter (·.kind != .comment)) ends
  rw [left, ofTokens_eq whole ends unmarked, ofTokens_eq part ends filtered, whole, part, body]
  simp only [nameOf, List.getLast?_concat]

def commentedLines : String :=
  "@fn f\nlet x = \x7b #a\n#b\n\x7d\nif x => 1 #c\n#d\nelse 2\n@spec S\n@invariant p #e\n q\n" ++
  "@refine S\n@maps m #f\n n #g"

theorem ofTokens_without_comments_in_lines :
    (∀ token ∈ tokenize commentedLines "f.sage", token.kind ≠ .declare .impl) ∧
      Document.ofTokens ((tokenize commentedLines "f.sage").filter (·.kind != .comment))
          (some "f.sage") =
        Document.ofTokens (tokenize commentedLines "f.sage") (some "f.sage") := by
  have closed : ∀ token ∈ tokenize commentedLines "f.sage", token.kind ≠ .declare .impl := by
    decide +kernel
  exact ⟨closed, ofTokens_without_comments closed (some "f.sage")⟩

end Grammar

end SageNotation
