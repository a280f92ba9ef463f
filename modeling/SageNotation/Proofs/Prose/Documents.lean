import SageNotation.Proofs.Grammar.Progress
import SageNotation.Proofs.Prose.Refinements
import SageNotation.Proofs.Token.Firm
import Mathlib.Data.List.TakeWhile

/-!
Documents, and the strings that are read for them.

Every string of a source is mentioned by the item inside whose span it stands,
with two exceptions.  The line of an inferred fact is divided at its first left
arrow, also where a string holds this arrow; the halves of that string are
mentioned, one in the condition and one in the reason.  And a text of a comparison
that is given again replaces the earlier one.
-/

namespace SageNotation

open Token Text

namespace Item

def Covers (item : Item) (token : Token) : Prop :=
  ∃ span, item.span? = some span ∧ token.span.Inside span

end Item

namespace Grammar

/-! ### Quotes -/

section Quotes

variable {word text : List Char}

theorem dropOpeningQuote_cases (text : List Char) :
    dropOpeningQuote text = text ∨ text = '"' :: dropOpeningQuote text := by
  unfold dropOpeningQuote
  split
  · exact Or.inr rfl
  · exact Or.inl rfl

theorem dropOpeningQuote_suffix (text : List Char) : dropOpeningQuote text <:+ text := by
  rcases dropOpeningQuote_cases text with same | quoted
  · rw [same]
  · have shorter := List.suffix_cons '"' (dropOpeningQuote text)
    rw [← quoted] at shorter
    exact shorter

theorem dropOpeningQuote_mono (within : word <:+: text) :
    dropOpeningQuote word <:+: dropOpeningQuote text := by
  have shorter := (dropOpeningQuote_suffix word).isInfix
  rcases dropOpeningQuote_cases text with same | quoted
  · rw [same]
    exact shorter.trans within
  · rw [quoted] at within
    rcases List.infix_cons_iff.mp within with start | further
    · -- Only where the word stands at the start does the text drop a quote of the word.
      cases word with
      | nil => exact List.nil_infix
      | cons character others =>
          obtain ⟨rfl, behind⟩ := List.cons_prefix_cons.mp start
          exact behind.isInfix
    · exact shorter.trans further

theorem unquoted_mono (within : word <:+: text) : unquoted word <:+: unquoted text := by
  have opened := dropOpeningQuote_mono (trimChars_mono within)
  have closed := dropOpeningQuote_mono (List.reverse_infix.mpr opened)
  exact trimChars_mono (List.reverse_infix.mpr closed)

theorem trimChars_infix_unquoted (word : List Char) :
    trimChars word <:+: unquoted ('"' :: (word ++ ['"'])) := by
  have firm : Firm ('"' :: (word ++ ['"'])) := by
    constructor
    · intro character member
      cases member
      rfl
    · intro character member
      rw [← List.cons_append, List.getLast?_concat] at member
      cases member
      rfl
  have opened := dropOpeningQuote_mono (infix_trimChars firm List.infix_rfl)
  have closed := dropOpeningQuote_mono (List.reverse_infix.mpr opened)
  rw [dropOpeningQuote, List.reverse_append, List.reverse_singleton, List.singleton_append,
    dropOpeningQuote, ← List.reverse_infix, List.reverse_reverse] at closed
  exact trimChars_mono closed

end Quotes

/-! ### Lines with an arrow -/

theorem splitAtArrow_eq {front : List Char} (absent : leftArrow ∉ front) (back : List Char) :
    splitAtArrow (front ++ leftArrow :: back) = (front, some back) := by
  have going : ∀ character ∈ front, (character != leftArrow) = true := by
    intro character member
    apply bne_iff_ne.mpr
    rintro rfl
    exact absent member
  have stops : (leftArrow != leftArrow) = false := bne_self_eq_false _
  unfold splitAtArrow
  rw [List.dropWhile_append_of_pos going, List.dropWhile_cons, stops,
    List.takeWhile_append_of_pos going, List.takeWhile_cons, stops]
  simp only [Bool.false_eq_true, if_false, List.append_nil]

theorem splitAtArrow_eq_self {text : List Char} (absent : leftArrow ∉ text) :
    splitAtArrow text = (text, none) := by
  have none : text.dropWhile (· != leftArrow) = [] := by
    apply List.dropWhile_eq_nil_iff.mpr
    intro character member
    apply bne_iff_ne.mpr
    rintro rfl
    exact absent member
  unfold splitAtArrow
  rw [none]

theorem mem_text_iff {token : Token} {character : Char} (plain : character ≠ '"') :
    character ∈ token.text.toList ↔ character ∈ token.value.toList := by
  by_cases string : token.kind = .string
  · rw [toList_text_of_string string, List.mem_cons, List.mem_append, List.mem_singleton]
    simp only [plain, false_or, or_false]
  · rw [Token.text, if_neg string]

theorem render_around (front : List Token) (token : Token) (back : List Token) :
    ∃ before after,
      (render (front ++ token :: back)).toList = before ++ token.text.toList ++ after ∧
      ∀ character, character ≠ ' ' →
        (character ∈ before ↔ ∃ other ∈ front, character ∈ other.text.toList) := by
  obtain ⟨before, after, same, opened, _⟩ := render_middle front token back
  refine ⟨before, after, same, ?_⟩
  intro character plain
  rw [opened.mem_iff plain, mem_render_iff plain]

/-! ### Inferred facts -/

/-- The string is the first token of the line to hold a left arrow. -/
def HoldsArrow (tokens : List Token) (token : Token) : Prop :=
  ∃ front back, line tokens = front ++ token :: back ∧ leftArrow ∈ token.value.toList ∧
    ∀ other ∈ front, leftArrow ∉ other.value.toList

section Facts

variable {tokens : List Token} {token : Token} {word text : List Char}

theorem toList_reasonOf (reason : List Char) :
    ((reasonOf (some reason)).getD "").toList = unquoted reason := by
  rw [reasonOf, Option.map_some]
  split
  · rename_i none
    cases none
  · rename_i empty
    rw [Option.some.inj empty]
    rfl
  · rename_i given _ same
    rw [Option.some.inj same, Option.getD_some, String.toList_ofList]

def factTexts (text : List Char) : List String :=
  String.ofList (unquoted (splitAtArrow text).1) :: (reasonOf (splitAtArrow text).2).toList

theorem condition_tells (within : word <:+: unquoted (splitAtArrow text).1) :
    ∃ content ∈ factTexts text, word <:+: content.toList := by
  refine ⟨_, List.mem_cons_self, ?_⟩
  rw [String.toList_ofList]
  exact within

theorem reason_tells {reason : List Char} (split : (splitAtArrow text).2 = some reason)
    (within : word <:+: unquoted reason) :
    ∃ content ∈ factTexts text, word <:+: content.toList := by
  rw [← toList_reasonOf] at within
  cases given : reasonOf (some reason) with
  | none =>
      -- A reason without text is none at all; then the word is empty.
      rw [given] at within
      rw [List.eq_nil_of_infix_nil within]
      exact condition_tells List.nil_infix
  | some content =>
      rw [given] at within
      refine ⟨content, List.mem_cons_of_mem _ ?_, within⟩
      rw [split, given]
      exact List.mem_singleton_self _

theorem line_around (string : token.kind = .string) (member : token ∈ line tokens) :
    ∃ front back before after, line tokens = front ++ token :: back ∧
      (render (line tokens)).toList = before ++ '"' :: (token.value.toList ++ '"' :: after) ∧
      (leftArrow ∈ before ↔ ∃ other ∈ front, leftArrow ∈ other.value.toList) := by
  obtain ⟨front, back, divided⟩ := List.append_of_mem member
  obtain ⟨before, after, same, inside⟩ := render_around front token back
  refine ⟨front, back, before, after, divided, ?_, ?_⟩
  · rw [divided, same, toList_text_of_string string]
    simp only [List.append_assoc, List.cons_append, List.nil_append]
  · rw [inside leftArrow (by decide)]
    simp only [mem_text_iff (show leftArrow ≠ '"' by decide)]

theorem content_infix_unquoted (token : Token) (front back : List Char) :
    token.content <:+: unquoted (front ++ '"' :: (token.value.toList ++ '"' :: back)) := by
  apply (trimChars_infix_unquoted token.value.toList).trans
  apply unquoted_mono
  refine ⟨front, back, ?_⟩
  simp only [List.append_assoc, List.cons_append, List.nil_append]

/-- A string that does not hold the first arrow of its line is whole on its side. -/
theorem line_tells (member : token ∈ line tokens) (string : token.kind = .string)
    (other : ¬ HoldsArrow tokens token) :
    ∃ content ∈ factTexts (render (line tokens)).toList, token.content <:+: content.toList := by
  obtain ⟨front, back, before, after, divided, same, inside⟩ := line_around string member
  rw [same]
  by_cases early : leftArrow ∈ before
  · -- The arrow stands before the string, which is therefore in the reason.
    obtain ⟨start, rest, split, absent⟩ := List.eq_append_cons_of_mem early
    rw [split, List.append_assoc, List.cons_append]
    apply reason_tells
    · rw [splitAtArrow_eq absent]
    · exact content_infix_unquoted token rest after
  · have silent : leftArrow ∉ token.value.toList := by
      intro holds
      refine other ⟨front, back, divided, holds, ?_⟩
      intro earlier listed arrow
      exact early (inside.mpr ⟨earlier, listed, arrow⟩)
    have absent : ∀ {start : List Char}, leftArrow ∉ start →
        leftArrow ∉ before ++ '"' :: (token.value.toList ++ '"' :: start) := by
      intro start none
      simp only [List.mem_append, List.mem_cons, early, silent, none, or_false]
      decide
    apply condition_tells
    by_cases late : leftArrow ∈ after
    · obtain ⟨start, rest, split, none⟩ := List.eq_append_cons_of_mem late
      have divides := splitAtArrow_eq (absent none) rest
      simp only [List.append_assoc, List.cons_append] at divides
      rw [split, divides]
      exact content_infix_unquoted token before start
    · rw [splitAtArrow_eq_self (absent late)]
      exact content_infix_unquoted token before after

theorem splitAtArrow_of_holdsArrow (holds : HoldsArrow tokens token)
    (string : token.kind = .string) :
    ∃ before after front back, token.value.toList = before ++ leftArrow :: after ∧
      leftArrow ∉ before ∧ splitAtArrow (render (line tokens)).toList =
        (front ++ before, some (after ++ back)) := by
  obtain ⟨earlier, later, divided, arrow, missing⟩ := holds
  obtain ⟨start, stop, same, inside⟩ := render_around earlier token later
  obtain ⟨before, after, split, absent⟩ := List.eq_append_cons_of_mem arrow
  refine ⟨before, after, start ++ ['"'], '"' :: stop, split, absent, ?_⟩
  have none : leftArrow ∉ start ++ ['"'] ++ before := by
    simp only [List.mem_append, List.mem_singleton, absent, or_false, not_or]
    refine ⟨?_, by decide⟩
    rw [inside leftArrow (by decide)]
    rintro ⟨other, listed, holds⟩
    exact missing other listed ((mem_text_iff (by decide)).mp holds)
  have divides := splitAtArrow_eq none (after ++ '"' :: stop)
  rw [divided, same, toList_text_of_string string, split, ← divides]
  simp only [List.append_assoc, List.cons_append, List.nil_append]

end Facts

/-! ### Items -/

/-- What becomes of a string among the tokens of an item, behind its first one.  The node
mentions its content; or, in an inferred fact, the string is divided at its first arrow
and either half stands on its side; or it belongs to a text of a comparison that is
given again. -/
inductive Retains (tokens : List Token) (token : Token) : Item → Prop where
  | whole {node : Item} (told : node.toTree.Mentions token.content) : Retains tokens token node
  | divided {fact : InferredFact} {before after : List Char} (holds : HoldsArrow tokens token)
      (split : token.value.toList = before ++ leftArrow :: after) (absent : leftArrow ∉ before)
      (condition : unquoted before <:+: fact.condition.toList)
      (reason : unquoted after <:+: (fact.reason.getD "").toList) :
      Retains tokens token (.inferred fact)
  | superseded {decl : Refinement} (drops : RefinementDrops tokens token) :
      Retains tokens token (.declaration (.refinement decl))

section Items

variable {first token : Token} {tokens : List Token}
  {reading : Reading ((Span → Item) × List Recovery) tokens}

theorem retains_of_texts {node : Item}
    (told : ∃ text ∈ node.texts, token.content <:+: text.toList) : Retains tokens token node := by
  obtain ⟨text, listed, within⟩ := told
  exact .whole ⟨text, Item.mem_prose listed, within⟩

theorem asDeclaration_voices
    {result : Option (Reading ((Span → Declaration) × List Recovery) tokens)}
    (read : asDeclaration result = .read reading)
    (voices : ∀ inner, result = some inner →
      Voices Declaration.texts inner.value.1 (between tokens inner.rest)) :
    Voices Item.texts reading.value.1 (between tokens reading.rest) := by
  obtain ⟨inner, found, same⟩ := Attempt.exists_of_map read
  subst same
  exact voices inner (Attempt.eq_some_of_ofOption found)

theorem declarationForm_voices {word : DeclareWord} (other : word ≠ .refine)
    (read : declarationForm word tokens = .read reading) :
    Voices Item.texts reading.value.1 (between tokens reading.rest) := by
  cases word with
  | mod =>
      apply asDeclaration_voices read
      intro inner found
      obtain ⟨plain, known, rfl⟩ := Option.map_eq_some_iff.mp found
      exact moduleDecl_voices known
  | type =>
      apply asDeclaration_voices read
      intro inner found
      obtain ⟨plain, known, rfl⟩ := Option.map_eq_some_iff.mp found
      exact typeDecl_voices known
  | fn =>
      apply asDeclaration_voices read
      intro inner found
      obtain ⟨plain, known, rfl⟩ := Option.map_eq_some_iff.mp found
      exact callable_voices known
  | spec =>
      apply asDeclaration_voices read
      intro inner found
      exact specDecl_voices found
  | op =>
      apply asDeclaration_voices read
      intro inner found
      obtain ⟨plain, known, rfl⟩ := Option.map_eq_some_iff.mp found
      exact callable_voices known
  | refine => exact False.elim (other rfl)
  | impl =>
      apply asDeclaration_voices read
      intro inner found
      cases found
      exact implementation_voices tokens

theorem declarationForm_retains {word : DeclareWord}
    (read : declarationForm word tokens = .read reading) (span : Span)
    (member : token ∈ between tokens reading.rest) (string : token.kind = .string) :
    Retains tokens token (reading.value.1 span) := by
  by_cases refines : word = .refine
  · subst refines
    obtain ⟨inner, found, same⟩ := Attempt.exists_of_map read
    subst same
    obtain ⟨decl, made, outcome⟩ :=
      refinement_tells (Attempt.eq_some_of_ofOption found) span member string
    change Retains tokens token (.declaration (inner.value.1 span))
    rw [made]
    rcases outcome with told | drops
    · exact retains_of_texts told
    · exact .superseded drops
  · exact retains_of_texts (declarationForm_voices refines read span token member string)

theorem inferredFact_retains (inference : Inference) (span : Span)
    (member : token ∈ between tokens (inferredFact inference tokens).rest)
    (string : token.kind = .string) :
    Retains tokens token (.inferred ((inferredFact inference tokens).value span)) := by
  change token ∈ between tokens (afterLine tokens) at member
  rw [between_line] at member
  by_cases holds : HoldsArrow tokens token
  · obtain ⟨before, after, front, back, split, absent, divides⟩ :=
      splitAtArrow_of_holdsArrow holds string
    refine .divided holds split absent ?_ ?_
    · change unquoted before <:+:
        (String.ofList (unquoted (splitAtArrow (render (line tokens)).toList).1)).toList
      rw [divides, String.toList_ofList]
      exact unquoted_mono (List.suffix_append _ _).isInfix
    · change unquoted after <:+:
        ((reasonOf (splitAtArrow (render (line tokens)).toList).2).getD "").toList
      rw [divides, toList_reasonOf]
      exact unquoted_mono (List.prefix_append _ _).isInfix
  · exact retains_of_texts (line_tells member string holds)

theorem itemForm_retains (read : itemForm first tokens = .read reading) (span : Span)
    (member : token ∈ first :: between tokens reading.rest) (string : token.kind = .string) :
    Retains tokens token (reading.value.1 span) := by
  have behind : first.kind ≠ .string → token ∈ between tokens reading.rest := by
    intro other
    apply mem_past_cons _ string other reading.suffix
    rw [between_cons reading.suffix]
    exact member
  unfold itemForm at read
  split at read
  · rename_i kind
    exact declarationForm_retains read span (behind (by rw [kind]; nofun)) string
  · rename_i kind
    have later := behind (by rw [kind]; nofun)
    cases read
    exact inferredFact_retains _ span later string
  · rename_i kind
    have later := behind (by rw [kind]; decide)
    cases read
    exact False.elim (List.not_mem_nil (between_self _ ▸ later))
  · obtain ⟨inner, found, same⟩ := Attempt.exists_of_map read
    subst same
    exact retains_of_texts (statementForm_voices found span token member string)

theorem item_retains (member : token ∈ first :: between tokens (item first tokens).rest)
    (string : token.kind = .string) : Retains tokens token (item first tokens).value.1 := by
  unfold item at member ⊢
  split at member
  · rename_i reading read
    exact itemForm_retains read _ member string
  · exact retains_of_texts (rawLine_voices first tokens _ token member string)
  · exact retains_of_texts (rawLine_voices first tokens _ token member string)

end Items

/-! ### Documents -/

theorem isSignificant_of_string {token : Token} (string : token.kind = .string) :
    token.isSignificant = true := by
  rw [isSignificant, string]
  rfl

/-- Each string of a run is kept by an item whose span lies around it. -/
theorem items_retain {file : String} {low high : Int} {tokens : List Token} {token : Token}
    (laid : Laid file low high tokens) (member : token ∈ tokens) (string : token.kind = .string) :
    ∃ first rest, first :: rest <:+ tokens ∧ (item first rest).value.1 ∈ (items tokens).value.1 ∧
      (item first rest).value.1.Covers token ∧ Retains rest token (item first rest).value.1 := by
  induction tokens using items.induct generalizing low with
  | case1 => cases member
  | case2 first rest trivia ih =>
      rw [items_trivia trivia]
      rcases List.mem_cons.mp member with same | later
      · rw [same] at string
        exact False.elim (kind_ne_string_of_isTrivia trivia string)
      · obtain ⟨opening, others, ahead, kept⟩ := ih laid.tail later
        exact ⟨opening, others, suffix_cons_of_suffix first ahead, kept⟩
  | case3 first rest plain ends =>
      have significant := laid.isSignificant_of_mem List.mem_cons_self (eq_false_of_ne_true plain)
      exact False.elim (kind_ne_eof_of_isSignificant significant ends)
  | case4 first rest plain unmarked one ih =>
      rw [(items_plain plain unmarked rest).1]
      -- The string is among the tokens of the first item or behind them.
      have divided := between_append_rest one.suffix
      rw [← divided, ← List.cons_append] at laid member
      obtain ⟨middle, front, back⟩ := laid.split
      rcases List.mem_append.mp member with here | later
      · have settles := item_settles (eq_false_of_ne_true plain) front
        have inside := settles.covers token here (isSignificant_of_string string)
        exact ⟨first, rest, List.suffix_rfl, List.mem_cons_self, ⟨_, settles.stamped, inside⟩,
          item_retains here string⟩
      · obtain ⟨opening, others, ahead, listed, kept⟩ := ih back later
        exact ⟨opening, others, suffix_cons_of_suffix first (ahead.trans one.suffix),
          List.mem_cons_of_mem _ listed, kept⟩

theorem eq_of_covers {nodes : List Item} {spans : List Span} {token : Token} {left right : Item}
    (stamped : nodes.map Item.span? = spans.map some) (apart : spans.Pairwise Span.Precedes)
    (nonempty : token.span.start.offset < token.span.stop.offset) (leftIn : left ∈ nodes)
    (rightIn : right ∈ nodes) (leftOver : left.Covers token) (rightOver : right.Covers token) :
    left = right := by
  -- One place in the list of spans holds the token; both items stand at that place.
  have placed : ∀ {node : Item}, node ∈ nodes → node.Covers token →
      ∃ index : Fin spans.length, nodes[index.val]? = some node ∧
        token.span.Inside (spans.get index) := by
    rintro node listed ⟨span, own, inside⟩
    obtain ⟨place, here⟩ := List.mem_iff_getElem?.mp listed
    have marked : (spans.map some)[place]? = some (some span) := by
      rw [← stamped, List.getElem?_map, here, Option.map_some, own]
    rw [List.getElem?_map] at marked
    obtain ⟨other, found, same⟩ := Option.map_eq_some_iff.mp marked
    cases same
    obtain ⟨bound, value⟩ := List.getElem?_eq_some_iff.mp found
    refine ⟨⟨place, bound⟩, here, ?_⟩
    rw [List.get_eq_getElem, value]
    exact inside
  obtain ⟨leftPlace, leftHere, leftInside⟩ := placed leftIn leftOver
  obtain ⟨rightPlace, rightHere, rightInside⟩ := placed rightIn rightOver
  rw [index_unique apart nonempty leftInside rightInside, rightHere] at leftHere
  exact (Option.some.inj leftHere).symm

/-- Every string of a text stands inside the span of one item of the document, and is
kept by this item. -/
theorem parse_retains_prose {source file : String} {token : Token}
    (member : token ∈ tokenize source file) (string : token.kind = .string) :
    ∃ first rest, first :: rest <:+ beforeEnd (tokenize source file) ∧
      (item first rest).value.1 ∈ (Document.parse source file).body ∧
      (∀ node ∈ (Document.parse source file).body,
        node.Covers token ↔ node = (item first rest).value.1) ∧
      Retains rest token (item first rest).value.1 := by
  have laid := laid_tokenize source file
  have significant := isSignificant_of_string string
  have here := mem_beforeEnd.mpr ⟨member, kind_ne_eof_of_isSignificant significant⟩
  obtain ⟨_, between⟩ := laid.stands_of_mem (widens_stands file) here
    (isTrivia_of_isSignificant significant)
  obtain ⟨spans, accounts⟩ := items_account laid
  obtain ⟨first, rest, ahead, listed, covers, kept⟩ := items_retain laid here string
  rw [← body_parse] at accounts listed
  refine ⟨first, rest, ahead, listed, ?_, kept⟩
  intro node within
  constructor
  · intro around
    exact eq_of_covers accounts.stamped ((precedes_of_inOrder accounts.ordered).imp And.right)
      between.nonempty within listed around covers
  · rintro rfl
    exact covers

def planSource : String :=
  "@refine Plan as Build [v1]\n\" why \"\n@maps \"how\"\n  cost -> \" time \"\n" ++
    "@compare_with Old\n  advantages: fast \"and small\""

theorem parse_retains_prose_of_plan :
    ∃ token ∈ tokenize planSource "plan.sage", token.kind = .string ∧ token.value = " time " ∧
      ∃ first rest, first :: rest <:+ beforeEnd (tokenize planSource "plan.sage") ∧
        (item first rest).value.1 ∈ (Document.parse planSource "plan.sage").body ∧
        (∀ node ∈ (Document.parse planSource "plan.sage").body,
          node.Covers token ↔ node = (item first rest).value.1) ∧
        Retains rest token (item first rest).value.1 := by
  have listed : ∃ token ∈ tokenize planSource "plan.sage",
      token.kind = .string ∧ token.value = " time " := by
    decide +kernel
  obtain ⟨token, member, string, value⟩ := listed
  exact ⟨token, member, string, value, parse_retains_prose member string⟩

def LosesString (source : String) : Prop :=
  ∃ token ∈ tokenize source "a.sage", token.kind = .string ∧
    ∀ node ∈ (Document.parse source "a.sage").body, ¬ node.toTree.Mentions token.content

instance (source : String) : Decidable (LosesString source) :=
  inferInstanceAs (Decidable (∃ token ∈ tokenize source "a.sage", token.kind = .string ∧
    ∀ node ∈ (Document.parse source "a.sage").body, ¬ node.toTree.Mentions token.content))

/-- Strings are lost to an arrow in an inferred fact, to a key that is given again, and
to a second comparison. -/
theorem losesString_divided_and_repeated :
    LosesString "@inferred_req \"a ← b\"" ∧
    LosesString "@refine A as B\n@compare_with C\n  advantages: \"x\"\n  advantages: \"y\"" ∧
    LosesString "@refine A as B\n@compare_with C\n  advantages: \"x\"\n@compare_with D" := by
  decide +kernel

end Grammar

end SageNotation
