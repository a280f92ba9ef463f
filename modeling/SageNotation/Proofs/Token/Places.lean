import SageNotation.Proofs.Source.Table
import SageNotation.Proofs.Token.Partition

/-!
Where the tokens of a text stand.

Scanning carries its position along, one character after the other.  Every span
that it leaves behind is also found by looking up its offsets in the text, apart
from the end of a newline, which stays on the line that it ends.
-/

namespace SageNotation.Token

/-- The span of a token as the table of a text has it. -/
structure Placed (source : SourceText) (token : Token) : Prop where
  start : token.span.start = source.positionAt token.span.start.offset
  stop : token.kind ≠ .newline → token.span.stop = source.positionAt token.span.stop.offset
  newline : token.kind = .newline → token.span.stop = token.span.start.beside

/-- What has been counted up to a place is looked up under the offset reached there. -/
theorem positionAt_after {source : SourceText} {before rest : List Char}
    (split : source.content.toList = before ++ rest) :
    source.positionAt (Position.first.after before).offset = Position.first.after before := by
  have place : (Position.first.after before).offset = before.length := by
    rw [Position.offset_after]
    exact Int.zero_add _
  rw [place, SourceText.positionAt_length split]

theorem placed_endMark (source : SourceText) (file : String) :
    Placed source (endMark file (Position.first.after source.content.toList)) := by
  have whole := positionAt_after (List.append_nil source.content.toList).symm
  exact ⟨whole.symm, fun _ => whole.symm, fun newline => by cases newline⟩

theorem placed_cut {source : SourceText} {before others left : List Char} {first : Char}
    {kind : Kind} (file : String)
    (split : source.content.toList = before ++ (first :: others ++ left)) :
    Placed source (cut file (Position.first.after before) kind first others) := by
  refine ⟨(positionAt_after split).symm, ?_, fun newline => if_pos newline⟩
  intro (other : kind ≠ .newline)
  have stop : stopOf kind (Position.first.after before) (first :: others) =
      Position.first.after (before ++ first :: others) := by
    rw [stopOf, if_neg other, Position.after_append]
  change stopOf kind _ _ = source.positionAt (stopOf kind _ _).offset
  rw [← List.append_assoc] at split
  rw [stop, positionAt_after split]

/-- The running positions of the scanner are those of the table of line starts. -/
theorem tokenize_placed (source file name : String) :
    ∀ token ∈ tokenize source file, Placed (SourceText.ofText source name) token := by
  intro token member
  by_cases marked : token.kind = .eof
  · obtain ⟨front, same, unmarked, _⟩ := scan_laid file .first source.toList
    rw [tokenize, same] at member
    rcases List.mem_append.mp member with within | last
    · exact False.elim (unmarked token within marked)
    · rw [List.mem_singleton.mp last]
      exact placed_endMark (SourceText.ofText source name) file
  · obtain ⟨before, first, rest, kind, split, _, same⟩ := cut_of_mem_scan member marked
    have whole : first :: rest = first :: rest.take (lexeme first rest).extra ++
        rest.drop (lexeme first rest).extra := by
      rw [List.cons_append, List.take_append_drop]
    rw [whole] at split
    rw [same]
    exact placed_cut file split

def brokenString : String := "let\r\n  \"a\r\\\nb\nc\" x"

theorem tokenize_placed_broken_string :
    ∃ token ∈ tokenize brokenString "f.sage", token.kind = .string ∧
      token.span = ⟨"f.sage", ⟨7, 2, 3⟩, ⟨16, 4, 3⟩⟩ ∧
      Placed (SourceText.ofText brokenString "f.sage") token := by
  have found : ∃ token ∈ tokenize brokenString "f.sage", token.kind = .string ∧
      token.span = ⟨"f.sage", ⟨7, 2, 3⟩, ⟨16, 4, 3⟩⟩ := by decide +kernel
  obtain ⟨token, member, string, span⟩ := found
  exact ⟨token, member, string, span,
    tokenize_placed brokenString "f.sage" "f.sage" token member⟩

end SageNotation.Token
