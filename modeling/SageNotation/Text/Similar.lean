/-!
Which of several words are close to a given one.

Two words are compared by the characters they share: the longest block that both
have, then in the same way what stands before it in both and what stands behind it
in both.  They are close when twice the shared characters are at least three fifths
of all their characters.
-/

namespace SageNotation.Text

def commonFront : List Char → List Char → Nat
  | left :: lefts, right :: rights => if left = right then commonFront lefts rights + 1 else 0
  | _, _ => 0

/-- A block of characters in two texts, by what stands before it in each. -/
structure Block where
  left : Nat
  right : Nat
  size : Nat
  deriving DecidableEq

/-- The longest block at the front of the left text; of several the first in the
right text. -/
def blockAtFront (left : List Char) : List Char → Block
  | [] => { left := 0, right := 0, size := 0 }
  | right :: rights =>
      let here := commonFront left (right :: rights)
      let later := blockAtFront left rights
      if later.size ≤ here then { left := 0, right := 0, size := here }
      else { later with right := later.right + 1 }

def longestBlock : List Char → List Char → Block
  | [], _ => { left := 0, right := 0, size := 0 }
  | left :: lefts, right =>
      let here := blockAtFront (left :: lefts) right
      let later := longestBlock lefts right
      if later.size ≤ here.size then here else { later with left := later.left + 1 }

theorem blockAtFront_left (left right : List Char) : (blockAtFront left right).left = 0 := by
  induction right with
  | nil => rfl
  | cons first rest ih =>
      simp only [blockAtFront]
      split
      · rfl
      · exact ih

theorem longestBlock_left_lt (left right : List Char) (found : 0 < (longestBlock left right).size) :
    (longestBlock left right).left < left.length := by
  induction left with
  | nil => exact absurd found (Nat.lt_irrefl 0)
  | cons first rest ih =>
      simp only [longestBlock] at found ⊢
      split
      · rw [blockAtFront_left]
        exact Nat.zero_lt_succ _
      · rename_i longer
        rw [if_neg longer] at found
        exact Nat.succ_lt_succ (ih found)

/-- How many characters two texts share, block by block. -/
def sharedCount (left right : List Char) : Nat :=
  let block := longestBlock left right
  if found : 0 < block.size then
    have := longestBlock_left_lt left right found
    sharedCount (left.take block.left) (right.take block.right) + block.size +
      sharedCount (left.drop (block.left + block.size)) (right.drop (block.right + block.size))
  else 0
termination_by left.length
decreasing_by
  · simp only [List.length_take]
    omega
  · have positive : 0 < (longestBlock left right).size := found
    simp only [List.length_drop]
    omega

structure Likeness where
  word : String
  shared : Nat
  total : Nat
  deriving DecidableEq

namespace Likeness

def ofWords (given word : String) : Likeness :=
  { word := word
    shared := sharedCount word.toList given.toList
    total := word.length + given.length }

def isClose (likeness : Likeness) : Bool :=
  3 * likeness.total ≤ 10 * likeness.shared

/-- The larger share comes first, then the later word. -/
def precedes (left right : Likeness) : Bool :=
  let leftShare := left.shared * right.total
  let rightShare := right.shared * left.total
  rightShare < leftShare || (leftShare == rightShare && right.word ≤ left.word)

end Likeness

/-- The words close to a given one, at most the three closest, in alphabetical
order. -/
def closeWords (given : String) (words : List String) : List String :=
  let close := (words.map (Likeness.ofWords given)).filter Likeness.isClose
  (((close.mergeSort Likeness.precedes).take 3).map (·.word)).mergeSort (· ≤ ·)

end SageNotation.Text
