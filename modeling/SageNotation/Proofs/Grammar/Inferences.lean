import SageNotation.Proofs.Diagnostic.Errors
import SageNotation.Proofs.Prose.Documents
import SageNotation.Proofs.Token.Rendered
import SageNotation.Proofs.Token.Symbols

/-!
Inferred facts, and where their lines are divided.

The readable text of a line is divided at its first left arrow, whether that is a
token of its own or a character of a string, and each half is read without blanks and
without a double quote at either end.  As long as no string stands before the first
arrow with an arrow of its own, the halves are those of the tokens (`Divides`), and a
half that is a single token, or has no string at its ends, is kept whole (`halfText`).
-/

namespace SageNotation

open Token Text Grammar

def Item.fact? : Item → Option InferredFact
  | inferred fact => some fact
  | _ => none

def Document.facts (document : Document) : List InferredFact :=
  document.body.filterMap Item.fact?

theorem Document.mem_facts {document : Document} {fact : InferredFact} :
    fact ∈ document.facts ↔ .inferred fact ∈ document.body := by
  rw [Document.facts, List.mem_filterMap]
  constructor
  · rintro ⟨node, member, same⟩
    cases node with
    | inferred => cases same; exact member
    | declaration | separator | statement | part => cases same
  · exact fun member => ⟨_, member, rfl⟩

/-! ### Arrows of tokens -/

namespace Token

section Arrows

variable {source file : String} {token : Token}

/-- Neither an arrow nor a string that holds one. -/
def Silent (token : Token) : Prop :=
  token.kind ≠ .leftArrow ∧ (token.kind = .string → leftArrow ∉ token.value.toList)

theorem silent_iff (member : token ∈ tokenize source file)
    (significant : token.isSignificant = true) :
    token.Silent ↔ leftArrow ∉ token.text.toList := by
  by_cases string : token.kind = .string
  · rw [mem_text_iff (by decide), Silent, string]
    exact ⟨fun silent => silent.2 rfl, fun absent => ⟨by decide, fun _ => absent⟩⟩
  · constructor
    · intro silent within
      rw [text, if_neg string] at within
      obtain ⟨rest, found⟩ :=
        found_of_mem_value member significant string (by decide) (by decide) within
      have alone : lexeme leftArrow rest = .single .leftArrow := by
        cases rest <;> rfl
      rw [alone] at found
      exact silent.1 (Option.some.inj found).symm
    · intro absent
      refine ⟨?_, fun kind => absurd kind string⟩
      intro arrow
      rw [text_of_leftArrow member arrow] at absent
      exact absent (List.mem_singleton_self _)

/-- What the readable text of a token tells: where it starts and stops, whether it is
quoted, and whether an arrow stands in it. -/
structure Legible (token : Token) : Prop where
  standing : Standing token.text
  quote : token.kind ≠ .string → '"' ∉ token.text.toList
  silent : token.Silent ↔ leftArrow ∉ token.text.toList
  arrow : token.kind = .leftArrow → token.text.toList = [leftArrow]

theorem legible_of_mem_tokenize (member : token ∈ tokenize source file)
    (significant : token.isSignificant = true) : token.Legible where
  standing := standing_of_mem_tokenize member significant
  quote := quote_not_mem_text member significant
  silent := silent_iff member significant
  arrow := text_of_leftArrow member

end Arrows

end Token

namespace Grammar

/-! ### Texts without quotes at their ends -/

/-- The second text is the first one without blanks around it, and possibly without a
double quote at either end. -/
def Bared (text bare : List Char) : Prop :=
  ∃ opening inner closing, trimChars text = opening ++ inner ++ closing ∧
    (opening = [] ∨ opening = ['"']) ∧ (closing = [] ∨ closing = ['"']) ∧ bare = trimChars inner

section Quotes

variable {text other : List Char}

theorem exists_opening (text : List Char) :
    ∃ opening, (opening = [] ∨ opening = ['"']) ∧ text = opening ++ dropOpeningQuote text := by
  rcases dropOpeningQuote_cases text with same | quoted
  · exact ⟨[], Or.inl rfl, same.symm⟩
  · exact ⟨['"'], Or.inr rfl, quoted⟩

theorem bared_unquoted (text : List Char) : Bared text (unquoted text) := by
  obtain ⟨opening, opens, opened⟩ := exists_opening (trimChars text)
  obtain ⟨closing, closes, closed⟩ := exists_opening (dropOpeningQuote (trimChars text)).reverse
  refine ⟨opening, _, closing, ?_, opens, closes, rfl⟩
  have turned := congrArg List.reverse closed
  rw [List.reverse_reverse, List.reverse_append] at turned
  have single : closing.reverse = closing := by
    rcases closes with rfl | rfl
    · rfl
    · rfl
  rw [single] at turned
  rw [List.append_assoc, ← turned]
  exact opened

theorem unquoted_congr (same : trimChars text = trimChars other) : unquoted text = unquoted other := by
  rw [unquoted, same, unquoted]

theorem dropOpeningQuote_eq_self (plain : ∀ first ∈ text.head?, first ≠ '"') :
    dropOpeningQuote text = text := by
  rcases dropOpeningQuote_cases text with same | quoted
  · exact same
  · exact absurd rfl (plain '"' (by rw [quoted]; rfl))

theorem unquoted_eq_self (trimmed : trimChars text = text)
    (opens : ∀ first ∈ text.head?, first ≠ '"') (closes : ∀ last ∈ text.getLast?, last ≠ '"') :
    unquoted text = text := by
  rw [List.getLast?_eq_head?_reverse] at closes
  rw [unquoted, trimmed, dropOpeningQuote_eq_self opens, dropOpeningQuote_eq_self closes,
    List.reverse_reverse, trimmed]

theorem unquoted_quoted (text : List Char) : unquoted ('"' :: (text ++ ['"'])) = trimChars text := by
  have trimmed := (standing_quoted text).trim
  rw [Text.trim, String.toList_ofList, String.ofList_inj] at trimmed
  rw [unquoted, trimmed, dropOpeningQuote, List.reverse_append, List.reverse_singleton,
    List.singleton_append, dropOpeningQuote, List.reverse_reverse]

end Quotes

/-! ### Halves of a line -/

section Halves

variable {run : List Token}

/-- The text of a half of a line: the trimmed value of a string that stands alone, and
otherwise the readable text of the tokens. -/
def halfText (run : List Token) : String :=
  match run with
  | [token] => if token.kind = .string then trim token.value else render run
  | _ => render run

/-- What is kept of a part of a line that is divided inside of a string. -/
structure Strips (part text : List Char) : Prop where
  exactly : text = unquoted part
  bared : Bared part text

theorem strips_unquoted (part : List Char) : Strips part (unquoted part) :=
  ⟨rfl, bared_unquoted part⟩

/-- A single token, or a run with no string at its ends. -/
def Clean (run : List Token) : Prop :=
  (∃ token, run = [token]) ∨
    ((∀ token ∈ run.head?, token.kind ≠ .string) ∧ ∀ token ∈ run.getLast?, token.kind ≠ .string)

/-- What is kept of a run of tokens.  Of a run with a string at an end, which is not the
whole of it, only quotes can be missing. -/
structure Conveys (run : List Token) (text : List Char) : Prop where
  bared : Bared (render run).toList text
  clean : Clean run → text = (halfText run).toList

theorem head?_render {first : Token} {others : List Token} (standing : Standing first.text) :
    (render (first :: others)).toList.head? = first.text.toList.head? := by
  obtain ⟨behind, same, _⟩ := toList_render_cons first others
  rw [same, List.head?_append_of_ne_nil _ standing.1]

theorem getLast?_render {front : List Token} {last : Token} (standing : Standing last.text) :
    (render (front ++ [last])).toList.getLast? = last.text.toList.getLast? := by
  by_cases opening : front = []
  · rw [opening, List.nil_append, render_singleton]
  · rw [render_append opening (List.cons_ne_nil last []), render_singleton, String.toList_append,
      List.getLast?_append_of_ne_nil _ standing.1]

theorem unquoted_render (legible : ∀ token ∈ run, token.Legible)
    (opens : ∀ token ∈ run.head?, token.kind ≠ .string)
    (closes : ∀ token ∈ run.getLast?, token.kind ≠ .string) :
    unquoted (render run).toList = (render run).toList := by
  by_cases nonempty : run = []
  · rw [nonempty]
    rfl
  · apply unquoted_eq_self
    · rw [← toList_trim, trim_render fun token member => (legible token member).standing]
    · obtain ⟨first, others, rfl⟩ := List.exists_cons_of_ne_nil nonempty
      have readable := legible first List.mem_cons_self
      rw [head?_render readable.standing]
      rintro character starts rfl
      exact readable.quote (opens first rfl) (List.mem_of_mem_head? starts)
    · obtain ⟨front, last, rfl⟩ := (List.eq_nil_or_concat' run).resolve_left nonempty
      have readable := legible last (List.mem_append_right front (List.mem_singleton_self last))
      rw [getLast?_render readable.standing]
      rintro character ends rfl
      exact readable.quote (closes last List.getLast?_concat) (List.mem_of_getLast? ends)

theorem unquoted_of_clean (legible : ∀ token ∈ run, token.Legible) (clean : Clean run) :
    unquoted (render run).toList = (halfText run).toList := by
  by_cases string : ∃ token, run = [token] ∧ token.kind = .string
  · obtain ⟨token, rfl, string⟩ := string
    rw [render_singleton, toList_text_of_string string, unquoted_quoted, halfText,
      if_pos string, toList_trim]
  · have plain : ∀ token, run = [token] → token.kind ≠ .string :=
      fun token same kind => string ⟨token, same, kind⟩
    have whole : halfText run = render run := by
      unfold halfText
      split
      · rename_i token
        rw [if_neg (plain token rfl)]
      · rfl
    rw [whole]
    rcases clean with ⟨token, rfl⟩ | ⟨opens, closes⟩
    · have alone : ∀ other ∈ some token, other.kind ≠ .string := by
        rintro other same
        cases same
        exact plain token rfl
      exact unquoted_render legible alone alone
    · exact unquoted_render legible opens closes

/-- A half is kept, whatever space the division has left at its ends. -/
theorem conveys_unquoted (legible : ∀ token ∈ run, token.Legible) {text : List Char}
    (spaced : Spaced (render run).toList text) : Conveys run (unquoted text) := by
  rw [unquoted_congr spaced.trimChars_eq]
  exact ⟨bared_unquoted _, unquoted_of_clean legible⟩

end Halves

/-! ### Division of a line -/

/-- How a line is divided into a condition and a reason: not at all, at an arrow of its own,
or inside of a string that holds the first arrow of the line.  A reason without text is
none. -/
inductive Divides : List Token → String → Option String → Prop where
  | whole {run : List Token} {condition : String} (silent : ∀ token ∈ run, token.Silent)
      (conveyed : Conveys run condition.toList) : Divides run condition none
  | marked {before after : List Token} {mark : Token} {condition : String} {reason : Option String}
      (silent : ∀ token ∈ before, token.Silent) (arrow : mark.kind = .leftArrow)
      (conveyed : Conveys before condition.toList)
      (reasoned : Conveys after (reason.getD "").toList) (stated : reason ≠ some "") :
      Divides (before ++ mark :: after) condition reason
  | within {before after : List Token} {word : Token} {front back : List Char} {condition : String}
      {reason : Option String} (silent : ∀ token ∈ before, token.Silent)
      (string : word.kind = .string) (holds : leftArrow ∈ word.value.toList)
      (split : (render (before ++ word :: after)).toList = front ++ leftArrow :: back)
      (absent : leftArrow ∉ front) (conveyed : Strips front condition.toList)
      (reasoned : Strips back (reason.getD "").toList) (stated : reason ≠ some "") :
      Divides (before ++ word :: after) condition reason

theorem reasonOf_ne_empty (text : Option (List Char)) : reasonOf text ≠ some "" := by
  unfold reasonOf
  split
  · intro same
    cases same
  · intro same
    cases same
  · rename_i nonempty _
    intro same
    rw [Option.some.injEq, ← String.ofList_nil, String.ofList_inj] at same
    exact nonempty same

theorem divides_render {run : List Token} (legible : ∀ token ∈ run, token.Legible) :
    Divides run (String.ofList (unquoted (splitAtArrow (render run).toList).1))
      (reasonOf (splitAtArrow (render run).toList).2) := by
  cases found : run.find? fun token => decide (leftArrow ∈ token.text.toList) with
  | none =>
      have missing : ∀ token ∈ run, leftArrow ∉ token.text.toList := by
        intro token member holds
        exact List.find?_eq_none.mp found token member (decide_eq_true holds)
      have absent : leftArrow ∉ (render run).toList := by
        rw [mem_render_iff (by decide)]
        rintro ⟨token, member, holds⟩
        exact missing token member holds
      rw [splitAtArrow_eq_self absent]
      apply Divides.whole fun token member => (legible token member).silent.mpr (missing token member)
      rw [String.toList_ofList]
      exact conveys_unquoted legible (Or.inl rfl)
  | some token =>
      obtain ⟨holds, before, after, rfl, missing⟩ := List.find?_eq_some_iff_append.mp found
      obtain ⟨here, behind⟩ := List.forall_mem_cons.mp (List.forall_mem_append.mp legible).2
      have earlier := (List.forall_mem_append.mp legible).1
      have quiet : ∀ other ∈ before, leftArrow ∉ other.text.toList := by
        intro other member
        exact of_decide_eq_false ((Bool.not_eq_true' _).mp (missing other member))
      have silent : ∀ other ∈ before, other.Silent :=
        fun other member => (earlier other member).silent.mpr (quiet other member)
      obtain ⟨front, back, text, opened, closed⟩ := render_middle before token after
      have arrow := of_decide_eq_true holds
      by_cases string : token.kind = .string
      · -- The line is divided inside of the string.
        obtain ⟨start, rest, split, absent⟩ : ∃ start rest,
            (render (before ++ token :: after)).toList = start ++ leftArrow :: rest ∧
              leftArrow ∉ start := by
          apply List.eq_append_cons_of_mem
          rw [text, List.append_assoc]
          exact List.mem_append_right _ (List.mem_append_left _ arrow)
        refine .within silent string ((mem_text_iff (by decide)).mp arrow) split absent ?_ ?_
          (reasonOf_ne_empty _)
        · rw [split, splitAtArrow_eq absent, String.toList_ofList]
          exact strips_unquoted start
        · rw [split, splitAtArrow_eq absent, toList_reasonOf]
          exact strips_unquoted rest
      · have mark : token.kind = .leftArrow := by
          by_contra other
          exact here.silent.mp ⟨other, fun kind => absurd kind string⟩ arrow
        have absent : leftArrow ∉ front := by
          rw [opened.mem_iff (by decide), mem_render_iff (by decide)]
          rintro ⟨other, member, within⟩
          exact quiet other member within
        rw [here.arrow mark, List.append_assoc, List.singleton_append] at text
        refine .marked silent mark ?_ ?_ (reasonOf_ne_empty _)
        · rw [text, splitAtArrow_eq absent, String.toList_ofList]
          exact conveys_unquoted earlier opened
        · rw [text, splitAtArrow_eq absent, toList_reasonOf]
          exact conveys_unquoted behind closed

section Facts

variable {keyword : Token} {rest : List Token} {inference : Inference} {fact : InferredFact}

theorem item_of_inferred (kind : keyword.kind = .inferred inference) (rest : List Token) :
    ∃ span, (item keyword rest).value.1 = .inferred ((inferredFact inference rest).value span) := by
  rw [item, itemForm, kind]
  exact ⟨_, rfl⟩

theorem inferred_of_item (read : (item keyword rest).value.1 = .inferred fact) :
    keyword.kind = .inferred fact.inference := by
  unfold item at read
  split at read
  · rename_i reading form
    unfold itemForm at form
    split at form
    · rw [declarationForm_eq] at form
      obtain ⟨inner, _, changed⟩ := Attempt.exists_of_map form
      rw [← changed] at read
      cases read
    · rename_i inference kind
      cases form
      rw [← Item.inferred.inj read]
      exact kind
    · cases form
      cases read
    · obtain ⟨inner, _, changed⟩ := Attempt.exists_of_map form
      rw [← changed] at read
      cases read
  · cases read
  · cases read

theorem legible_line {source file : String}
    (within : ∀ token ∈ rest, token ∈ beforeEnd (tokenize source file)) :
    ∀ token ∈ line rest, token.Legible := by
  intro token member
  have marked := within token (List.takeWhile_subset _ member)
  exact legible_of_mem_tokenize (mem_beforeEnd.mp marked).1
    (isSignificant_of_mem_beforeEnd marked (isTrivia_of_mem_line member))

/-- Every keyword of an inferred fact, read as an item, gives a fact whose line is divided
in this way, and every fact of a document was read at such a keyword. -/
theorem parse_divides (source file : String) :
    (∀ keyword rest inference, keyword :: rest <:+ beforeEnd (tokenize source file) →
      keyword.kind = .inferred inference → ∃ fact, (item keyword rest).value.1 = .inferred fact ∧
        fact.inference = inference ∧ Divides (line rest) fact.condition fact.reason) ∧
    ∀ fact ∈ (Document.parse source file).facts, ∃ keyword rest,
      keyword :: rest <:+ beforeEnd (tokenize source file) ∧
      keyword.kind = .inferred fact.inference ∧ (item keyword rest).value.1 = .inferred fact := by
  constructor
  · intro keyword rest inference ahead kind
    obtain ⟨span, read⟩ := item_of_inferred kind rest
    have within : ∀ token ∈ rest, token ∈ beforeEnd (tokenize source file) :=
      fun token member => ahead.subset (List.mem_cons_of_mem keyword member)
    exact ⟨_, read, rfl, divides_render (legible_line within)⟩
  · intro fact member
    obtain ⟨keyword, rest, ahead, _, read⟩ := exists_of_mem_parse (Document.mem_facts.mp member)
    exact ⟨keyword, rest, ahead, inferred_of_item read, read⟩

def guessSource : String :=
  "@inferred_req n > 0 ← \" given \"\n@inferred_ens \"a ← b\""

theorem parse_divides_of_guesses :
    (Document.parse guessSource "a.sage").facts.map (fun fact => (fact.condition, fact.reason)) =
      [("n > 0", some "given"), ("a", some "b")] ∧
    ∀ fact ∈ (Document.parse guessSource "a.sage").facts, ∃ keyword rest,
      keyword :: rest <:+ beforeEnd (tokenize guessSource "a.sage") ∧
      Divides (line rest) fact.condition fact.reason := by
  refine ⟨by decide +kernel, ?_⟩
  intro fact member
  obtain ⟨divided, stated⟩ := parse_divides guessSource "a.sage"
  obtain ⟨keyword, rest, ahead, kind, read⟩ := stated fact member
  obtain ⟨other, same, _, divides⟩ := divided keyword rest _ ahead kind
  rw [read] at same
  cases same
  exact ⟨keyword, rest, ahead, divides⟩

/-- A line with no arrow among its tokens, whose string is taken apart. -/
theorem arrow_in_string_divides :
    let source := "@inferred_req \"a ← b\""
    let run := line (beforeEnd (tokenize source "a.sage")).tail
    (∀ token ∈ run, token.kind ≠ .leftArrow) ∧ halfText run = "a ← b" ∧
      (Document.parse source "a.sage").facts.map (fun fact => (fact.condition, fact.reason)) =
        [("a", some "b")] := by
  decide +kernel

end Facts

end Grammar

end SageNotation
