import Mathlib.Data.List.Induction
import Mathlib.Data.List.TakeWhile
import SageNotation.Source.Text

/-!
The table of line starts and positions that are counted along the way.

`Position.after` counts lines and columns character by character, and
`SourceText.positionAt` looks an offset up in the table of line starts.  They
agree: the starts up to an offset are those of the text before it
(`lineStarts_upTo`), and they give line and column of what has been counted
there (`after_eq_table`).
-/

namespace SageNotation

namespace SourceText

theorem startsFrom_append (offset : Nat) (front back : List Char) :
    startsFrom offset (front ++ back) =
      startsFrom offset front ++ startsFrom (offset + front.length) back := by
  induction front generalizing offset with
  | nil => rfl
  | cons character rest ih =>
      have moved : offset + (rest.length + 1) = offset + 1 + rest.length := by omega
      simp only [List.cons_append, startsFrom, ih, List.length_cons, moved]
      split <;> rfl

theorem bounds_of_mem_startsFrom {offset start : Nat} {text : List Char}
    (member : start ∈ startsFrom offset text) : offset < start ∧ start ≤ offset + text.length := by
  induction text generalizing offset with
  | nil => cases member
  | cons character rest ih =>
      have later : start ∈ startsFrom (offset + 1) rest →
          offset < start ∧ start ≤ offset + (rest.length + 1) := by
        intro within
        obtain ⟨above, below⟩ := ih within
        omega
      rw [startsFrom] at member
      rw [List.length_cons]
      split at member
      · rcases List.mem_cons.mp member with same | within
        · omega
        · exact later within
      · exact later member

theorem lineStarts_upTo {source : SourceText} {before rest : List Char}
    (split : source.content.toList = before ++ rest) :
    source.lineStarts.takeWhile (· ≤ before.length) = 0 :: startsFrom 0 before := by
  have within : ∀ start ∈ 0 :: startsFrom 0 before, decide (start ≤ before.length) = true := by
    intro start member
    rcases List.mem_cons.mp member with same | later
    · rw [same]
      exact decide_eq_true (Nat.zero_le _)
    · have bounds := bounds_of_mem_startsFrom later
      exact decide_eq_true (by omega)
  have beyond : (startsFrom before.length rest).takeWhile (· ≤ before.length) = [] := by
    rw [List.takeWhile_eq_nil_iff]
    intro nonempty
    have bounds := bounds_of_mem_startsFrom (List.get_mem (startsFrom before.length rest) ⟨0, nonempty⟩)
    simp only [decide_eq_true_eq]
    omega
  rw [lineStarts, split, startsFrom_append, Nat.zero_add, ← List.cons_append,
    List.takeWhile_append_of_pos within, beyond, List.append_nil]

/-- What has been counted at the end of a text: the number of lines, and the column
by the start of the last one. -/
theorem after_eq_table (before : List Char) :
    Position.first.after before =
      { offset := before.length
        line := (0 :: startsFrom 0 before).length
        col := (before.length : Int) - (0 :: startsFrom 0 before).getLastD 0 + 1 } := by
  induction before using List.reverseRecOn with
  | nil => rfl
  | append_singleton front character ih =>
      rw [Position.after_append, ih, startsFrom_append, Nat.zero_add, List.length_append,
        List.length_singleton]
      by_cases newline : character = '\n'
      · subst newline
        have last : (0 :: (startsFrom 0 front ++ [front.length + 1])).getLastD 0 =
            front.length + 1 := by
          rw [← List.cons_append, List.getLastD_concat]
        change Position.next _ '\n' = _
        simp only [Position.next, if_true, startsFrom, last, List.length_cons, List.length_append,
          List.length_nil, Position.mk.injEq]
        omega
      · change Position.next _ character = _
        simp only [Position.next, newline, if_false, startsFrom, List.append_nil,
          Position.mk.injEq, true_and]
        omega

/-- The position that is looked up for the end of the text before an offset is the
one that is counted there. -/
theorem positionAt_length {source : SourceText} {before rest : List Char}
    (split : source.content.toList = before ++ rest) :
    source.positionAt before.length = Position.first.after before := by
  have place : source.clamp before.length = before.length := by
    rw [clamp, length, split, List.length_append, Int.toNat_natCast]
    exact Nat.min_eq_left (Nat.le_add_right _ _)
  rw [positionAt, place, lineStarts_upTo split, after_eq_table]

end SourceText

end SageNotation
