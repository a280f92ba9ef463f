import SageNotation.Grammar.Documents
import SageNotation.Proofs.Grammar.Extent
import Mathlib.Data.List.Infix

/-!
Strings inside the text that stands for a run of tokens.

A text tells the strings of a run when the content of each, without the blanks
around it, occurs in it.  The text of a line tells the strings of the line, and
goes on doing so when it is trimmed or joined to others, since a content without
blanks at its ends is never cut by trimming.
-/

namespace SageNotation

namespace Text

variable {word text : List Char}

/-! ### Words that trimming leaves alone -/

/-- A word with no blank at either end. -/
structure Firm (word : List Char) : Prop where
  first : ∀ character ∈ word.head?, isBlank character = false
  last : ∀ character ∈ word.getLast?, isBlank character = false

theorem infix_trimStart (first : ∀ character ∈ word.head?, isBlank character = false)
    (within : word <:+: text) : word <:+: trimStart text := by
  cases word with
  | nil => exact List.nil_infix
  | cons character others =>
      obtain ⟨front, back, rfl⟩ := within
      have stays : isBlank character = false := first character rfl
      rw [trimStart, List.append_assoc, List.dropWhile_append, List.cons_append,
        List.dropWhile_cons, stays]
      -- Blanks are dropped from what stands before the word, and at most all of that.
      split
      · exact ⟨[], back, rfl⟩
      · exact ⟨front.dropWhile isBlank, back, List.append_assoc _ _ _⟩

theorem infix_trimEnd (last : ∀ character ∈ word.getLast?, isBlank character = false)
    (within : word <:+: text) : word <:+: trimEnd text := by
  rw [← List.head?_reverse] at last
  have reversed := infix_trimStart last (List.reverse_infix.mpr within)
  rw [trimEnd, ← List.reverse_infix, List.reverse_reverse]
  exact reversed

theorem infix_trimChars (firm : Firm word) (within : word <:+: text) : word <:+: trimChars text :=
  infix_trimEnd firm.last (infix_trimStart firm.first within)

theorem trimEnd_within (text : List Char) : trimEnd text <+: text := by
  rw [trimEnd, ← List.reverse_suffix, List.reverse_reverse]
  exact List.dropWhile_suffix isBlank

theorem trimChars_within (text : List Char) : trimChars text <:+: text :=
  (trimEnd_within _).isInfix.trans (List.dropWhile_suffix isBlank).isInfix

theorem firm_trimChars (text : List Char) : Firm (trimChars text) := by
  constructor
  · intro character member
    have start := List.head?_dropWhile_not isBlank text
    obtain ⟨others, same⟩ := List.head?_eq_some_iff.mp member
    obtain ⟨back, whole⟩ := trimEnd_within (trimStart text)
    rw [← trimChars, same, trimStart] at whole
    rw [← whole] at start
    exact start
  · intro character member
    have start := List.head?_dropWhile_not isBlank (trimStart text).reverse
    rw [trimChars, trimEnd, List.getLast?_reverse] at member
    rw [member] at start
    exact start

/-- Of a part of a text, trimming the text leaves what trimming the part leaves. -/
theorem trimChars_mono (within : word <:+: text) : trimChars word <:+: trimChars text :=
  infix_trimChars (firm_trimChars word) ((trimChars_within word).trans within)

theorem infix_intercalate {pieces : List (List Char)} {piece : List Char}
    (member : piece ∈ pieces) (separator : List Char) :
    piece <:+: separator.intercalate pieces := by
  induction pieces with
  | nil => cases member
  | cons first others ih =>
      cases others with
      | nil =>
          rw [List.mem_singleton.mp member, List.intercalate_singleton]
      | cons second others =>
          rw [List.intercalate_cons_cons]
          rcases List.mem_cons.mp member with same | later
          · rw [same, List.append_assoc]
            exact (List.prefix_append _ _).isInfix
          · exact (ih later).trans (List.suffix_append _ _).isInfix

end Text

namespace Token

open Text

theorem text_infix_render {run : List Token} {token : Token} (member : token ∈ run) :
    token.text.toList <:+: (render run).toList := by
  rw [render, String.toList_intercalate]
  apply infix_intercalate
  exact List.mem_map_of_mem (List.mem_map_of_mem member)

theorem toList_text_of_string {token : Token} (string : token.kind = .string) :
    token.text.toList = '"' :: (token.value.toList ++ ['"']) := by
  rw [text, if_pos string, String.toList_append, String.toList_append]
  rfl

theorem value_infix_text {token : Token} (string : token.kind = .string) :
    token.value.toList <:+: token.text.toList := by
  rw [toList_text_of_string string]
  exact ⟨['"'], ['"'], rfl⟩

def content (token : Token) : List Char :=
  trimChars token.value.toList

theorem content_within (token : Token) : token.content <:+: token.value.toList :=
  trimChars_within _

theorem firm_content (token : Token) : Firm token.content :=
  firm_trimChars _

/-! ### Texts and runs -/

/-- The content of every string of the run occurs in one of the texts. -/
def Tells (texts : List String) (run : List Token) : Prop :=
  ∀ token ∈ run, token.kind = .string → ∃ text ∈ texts, token.content <:+: text.toList

namespace Tells

variable {texts larger : List String} {run more : List Token}

theorem of_render (run : List Token) : Tells [render run] run := by
  intro token member string
  refine ⟨_, List.mem_singleton_self _, ?_⟩
  exact ((content_within token).trans (value_infix_text string)).trans (text_infix_render member)

theorem trim {text : String} (tells : Tells [text] run) : Tells [Text.trim text] run := by
  intro token member string
  obtain ⟨other, same, within⟩ := tells token member string
  rw [List.mem_singleton.mp same] at within
  refine ⟨_, List.mem_singleton_self _, ?_⟩
  rw [toList_trim]
  exact infix_trimChars (firm_content token) within

theorem mono (tells : Tells texts run) (within : ∀ text ∈ texts, text ∈ larger) :
    Tells larger run := by
  intro token member string
  obtain ⟨text, listed, here⟩ := tells token member string
  exact ⟨text, within text listed, here⟩

theorem nil (texts : List String) : Tells texts [] := by
  intro token member
  cases member

theorem append (front : Tells texts run) (back : Tells texts more) : Tells texts (run ++ more) := by
  intro token member string
  rcases List.mem_append.mp member with early | late
  · exact front token early string
  · exact back token late string

theorem cons {first : Token} (other : first.kind ≠ .string) (tells : Tells texts run) :
    Tells texts (first :: run) := by
  intro token member string
  rcases List.mem_cons.mp member with same | later
  · rw [same] at string
    exact False.elim (other string)
  · exact tells token later string

theorem of_silent (texts : List String) (silent : ∀ token ∈ run, token.kind ≠ .string) :
    Tells texts run := by
  intro token member string
  exact False.elim (silent token member string)

theorem join (tells : Tells texts run) (separator : String) :
    Tells [String.intercalate separator texts] run := by
  intro token member string
  obtain ⟨text, listed, told⟩ := tells token member string
  refine ⟨_, List.mem_singleton_self _, ?_⟩
  rw [String.toList_intercalate]
  exact told.trans (infix_intercalate (List.mem_map_of_mem listed) _)

/-- What two texts tell one after the other, they tell together. -/
theorem seq {others : List String} {tokens middle rest : List Token}
    (front : Tells texts (between tokens middle)) (back : Tells others (between middle rest))
    (outer : middle <:+ tokens) (inner : rest <:+ middle) :
    Tells (texts ++ others) (between tokens rest) := by
  have early := front.mono fun text member => List.mem_append_left others member
  have late := back.mono fun text member => List.mem_append_right texts member
  rw [between_trans outer inner]
  exact early.append late

theorem trans {tokens middle rest : List Token} (front : Tells texts (between tokens middle))
    (back : Tells texts (between middle rest)) (outer : middle <:+ tokens)
    (inner : rest <:+ middle) :
    Tells texts (between tokens rest) := by
  rw [between_trans outer inner]
  exact front.append back

end Tells

theorem kind_ne_string_of_isTrivia {token : Token} (trivia : token.isTrivia = true) :
    token.kind ≠ .string := by
  intro string
  rw [isTrivia, string] at trivia
  cases trivia

/-! ### Tokens on the way that are no strings -/

theorem mem_past_cons {first token : Token} {tokens rest : List Token}
    (member : token ∈ between (first :: tokens) rest) (string : token.kind = .string)
    (other : first.kind ≠ .string) (ahead : rest <:+ tokens) : token ∈ between tokens rest := by
  rw [between_cons ahead] at member
  rcases List.mem_cons.mp member with same | later
  · rw [same] at string
    exact False.elim (other string)
  · exact later

namespace Tells

variable {texts : List String} {tokens rest : List Token}

theorem past_cons {first : Token} (tells : Tells texts (between tokens rest))
    (other : first.kind ≠ .string) (ahead : rest <:+ tokens) :
    Tells texts (between (first :: tokens) rest) := by
  rw [between_cons ahead]
  exact tells.cons other

theorem past_taken {taken : Taken tokens} {kind : Kind}
    (tells : Tells texts (between taken.rest rest)) (found : expect kind tokens = some taken)
    (other : kind ≠ .string) (ahead : rest <:+ taken.rest) : Tells texts (between tokens rest) := by
  have sort := kind_of_expect found
  obtain ⟨token, left, split⟩ := taken
  subst split
  rw [← sort] at other
  exact tells.past_cons other ahead

theorem past_dropOne {kind : Kind} (tells : Tells texts (between (dropOne kind tokens) rest))
    (other : kind ≠ .string) (ahead : rest <:+ dropOne kind tokens) :
    Tells texts (between tokens rest) := by
  cases tokens with
  | nil => exact tells
  | cons token others =>
      rw [dropOne] at tells ahead
      split at tells
      · rename_i same
        rw [← same] at other
        rw [if_pos same] at ahead
        exact tells.past_cons other ahead
      · exact tells

theorem past_skipBlank (tells : Tells texts (between (skipBlank tokens) rest))
    (ahead : rest <:+ skipBlank tokens) : Tells texts (between tokens rest) := by
  have divided := between_append (tokens.takeWhile isTrivia) (tokens.dropWhile isTrivia)
  rw [List.takeWhile_append_dropWhile] at divided
  have blank : Tells texts (between tokens (skipBlank tokens)) := by
    rw [skipBlank, divided]
    apply Tells.of_silent
    intro token member
    exact kind_ne_string_of_isTrivia (List.all_eq_true.mp List.all_takeWhile token member)
  exact blank.trans tells (skipBlank_suffix tokens) ahead

theorem nothing (texts : List String) (tokens : List Token) :
    Tells texts (between tokens tokens) := by
  rw [between_self]
  exact .nil texts

end Tells

end Token

namespace Grammar

open Token Text

/-- An empty text tells nothing but contents without characters, so it may be left out. -/
theorem tells_joinNonempty {texts : List String} {run : List Token} (tells : Tells texts run)
    (separator : String) : Tells [Grammar.joinNonempty separator texts] run := by
  intro token member string
  obtain ⟨text, listed, told⟩ := tells token member string
  refine ⟨_, List.mem_singleton_self _, ?_⟩
  cases empty : text.isEmpty with
  | true =>
      rw [String.isEmpty_iff] at empty
      rw [empty] at told
      rw [List.eq_nil_of_infix_nil told]
      exact List.nil_infix
  | false =>
      have kept : text ∈ texts.filter (!·.isEmpty) := by
        apply List.mem_filter.mpr
        rw [empty]
        exact ⟨listed, rfl⟩
      rw [Grammar.joinNonempty, String.toList_intercalate]
      exact told.trans (infix_intercalate (List.mem_map_of_mem kept) _)

/-! ### Reading texts -/

theorem between_line (tokens : List Token) : between tokens (afterLine tokens) = line tokens := by
  have divided := between_append (line tokens) (afterLine tokens)
  rw [line_append_afterLine] at divided
  exact divided

theorem lineText_tells (tokens : List Token) :
    Tells [(Reading.lineText tokens).value] (between tokens (Reading.lineText tokens).rest) := by
  change Tells [render (line tokens)] (between tokens (afterLine tokens))
  rw [between_line]
  exact .of_render _

theorem tells_value (token : Token) (rest : List Token) :
    Tells [token.value] (between (token :: rest) rest) := by
  rw [between_cons List.suffix_rfl, between_self]
  intro other member _
  rw [List.mem_singleton.mp member]
  exact ⟨_, List.mem_singleton_self _, content_within token⟩

theorem stringOrLine_tells (tokens : List Token) :
    Tells [(Reading.stringOrLine tokens).value]
      (between tokens (Reading.stringOrLine tokens).rest) := by
  cases tokens with
  | nil => exact lineText_tells []
  | cons token rest =>
      rw [Reading.stringOrLine]
      split
      · exact tells_value token rest
      · exact lineText_tells (token :: rest)

theorem string?_tells {tokens : List Token} {reading : Reading String tokens}
    (read : Reading.string? tokens = some reading) :
    Tells [reading.value] (between tokens reading.rest) := by
  induction tokens with
  | nil => cases read
  | cons token rest ih =>
      rw [Reading.string?] at read
      split at read
      · rename_i trivia
        obtain ⟨inner, found, same⟩ := Option.map_eq_some_iff.mp read
        subst same
        exact (ih found).past_cons (kind_ne_string_of_isTrivia trivia) inner.suffix
      · split at read
        · cases read
          exact tells_value token rest
        · cases read

theorem description_tells (tokens : List Token) :
    Tells (Reading.description tokens).value.toList
      (between tokens (Reading.description tokens).rest) := by
  unfold Reading.description
  split
  · rename_i reading read
    exact string?_tells read
  · exact .nothing _ tokens

end Grammar

end SageNotation
