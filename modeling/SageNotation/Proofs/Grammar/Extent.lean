import SageNotation.Grammar.Reading
import SageNotation.Proofs.Token.Partition

/-!
Runs of tokens and the spans stamped on them.

A run is laid between two offsets when its tokens other than newlines and
comments follow each other there.  The extent of a token and a run after it,
which is what `Token.through` stamps, then lies between the same offsets, and
the run itself is laid up to the end of the extent and no further.
-/

namespace SageNotation

namespace Token

/-- A newline or comment may stand anywhere; any other token stands between the
offsets and is not the end mark. -/
def Stands (file : String) (low high : Int) (token : Token) : Prop :=
  token.isTrivia = false → token.kind ≠ .eof ∧ token.span.Between file low high

theorem widens_stands (file : String) : Widens (Stands file) :=
  fun _ _ _ _ _ here below above plain =>
    ⟨(here plain).1, Span.widens_between file (here plain).2 below above⟩

def Laid (file : String) (low high : Int) (run : List Token) : Prop :=
  InOrder (Stands file) low high run

theorem isSignificant_of_stands {file : String} {low high : Int} {token : Token}
    (plain : token.isTrivia = false) (here : Stands file low high token) :
    token.isSignificant = true := by
  have unmarked := (here plain).1
  rw [isTrivia] at plain
  simp only [isSignificant, plain, Bool.not_false, Bool.true_and, bne_iff_ne, ne_eq]
  exact unmarked

theorem isTrivia_of_isSignificant {token : Token} (significant : token.isSignificant = true) :
    token.isTrivia = false := by
  simp only [isSignificant, Bool.and_eq_true, Bool.not_eq_true'] at significant
  exact significant.1

theorem kind_ne_eof_of_isSignificant {token : Token} (significant : token.isSignificant = true) :
    token.kind ≠ .eof := by
  simp only [isSignificant, Bool.and_eq_true, bne_iff_ne] at significant
  exact significant.2

theorem endsLine_of_isTrivia {token : Token} (trivia : token.isTrivia = true) :
    token.endsLine = true := by
  rw [endsLine, trivia, Bool.true_or]

theorem isTrivia_of_endsLine {token : Token} (going : token.endsLine = false) :
    token.isTrivia = false := by
  rw [endsLine, Bool.or_eq_false_iff] at going
  exact going.1

theorem endsLine_of_unmarked {token : Token} (unmarked : token.kind ≠ .eof) :
    token.endsLine = token.isTrivia := by
  rw [endsLine, beq_false_of_ne unmarked, Bool.or_false]

theorem stands_of_isTrivia {file : String} {low high : Int} {token : Token}
    (trivia : token.isTrivia = true) : Stands file low high token := by
  intro plain
  rw [trivia] at plain
  cases plain

namespace Laid

variable {file : String} {low high : Int} {token : Token} {run : List Token}

theorem of_inOrder (ordered : InOrder (Between file) low high run)
    (unmarked : ∀ token ∈ run, token.kind ≠ .eof) : Laid file low high run :=
  ordered.imp fun item member _ _ here _ => ⟨unmarked item member, here⟩

theorem tail (laid : Laid file low high (token :: run)) : Laid file low high run := by
  obtain ⟨middle, lower, _, rest⟩ := laid
  exact rest.widen (widens_stands file) lower (Int.le_refl _)

theorem of_trivia (file : String) (place : Int) (trivia : ∀ token ∈ run, token.isTrivia = true) :
    Laid file place place run := by
  induction run with
  | nil => exact Int.le_refl _
  | cons token others ih =>
      have later := ih fun other member => trivia other (List.mem_cons_of_mem token member)
      exact ⟨place, Int.le_refl _, stands_of_isTrivia (trivia token List.mem_cons_self), later⟩

theorem isSignificant_of_mem (laid : Laid file low high run) (member : token ∈ run)
    (plain : token.isTrivia = false) : token.isSignificant = true :=
  isSignificant_of_stands plain (laid.stands_of_mem (widens_stands file) member)

theorem isTrivia_of_silent (laid : Laid file low high run)
    (silent : ∀ token ∈ run, token.isSignificant = false) :
    ∀ token ∈ run, token.isTrivia = true := by
  intro token member
  cases trivia : token.isTrivia with
  | true => rfl
  | false =>
      have significant := laid.isSignificant_of_mem member trivia
      rw [silent token member] at significant
      cases significant

end Laid

/-! ### Extents -/

theorem between_append_rest {tokens rest : List Token} (ahead : rest <:+ tokens) :
    between tokens rest ++ rest = tokens := by
  obtain ⟨run, same⟩ := ahead
  rw [← same, between_append]

theorem between_self (tokens : List Token) : between tokens tokens = [] := by
  simp only [between, Nat.sub_self, List.take_zero]

theorem between_cons {first : Token} {tokens rest : List Token} (ahead : rest <:+ tokens) :
    between (first :: tokens) rest = first :: between tokens rest := by
  obtain ⟨run, same⟩ := ahead
  rw [← same, between_append, ← List.cons_append, between_append]

theorem between_trans {tokens middle rest : List Token} (outer : middle <:+ tokens)
    (inner : rest <:+ middle) :
    between tokens rest = between tokens middle ++ between middle rest := by
  obtain ⟨front, same⟩ := outer
  obtain ⟨back, other⟩ := inner
  rw [← same, between_append, ← other, between_append, ← List.append_assoc, between_append]

namespace Laid

variable {file : String} {low high : Int} {tokens middle rest : List Token}

/-- A run that is laid divides at every place on the way. -/
theorem split_at (laid : Laid file low high (between tokens rest)) (outer : middle <:+ tokens)
    (inner : rest <:+ middle) :
    ∃ place, Laid file low place (between tokens middle) ∧
      Laid file place high (between middle rest) := by
  rw [between_trans outer inner] at laid
  exact laid.split

theorem after (laid : Laid file low high (between tokens rest)) (outer : middle <:+ tokens)
    (inner : rest <:+ middle) : Laid file low high (between middle rest) := by
  obtain ⟨place, front, back⟩ := laid.split_at outer inner
  exact back.widen (widens_stands file) front.le (Int.le_refl _)

theorem before (laid : Laid file low high (between tokens rest)) (outer : middle <:+ tokens)
    (inner : rest <:+ middle) : Laid file low high (between tokens middle) := by
  obtain ⟨place, front, back⟩ := laid.split_at outer inner
  exact front.widen (widens_stands file) (Int.le_refl _) back.le

theorem inside {stop : List Token} (laid : Laid file low high (between tokens rest))
    (outer : middle <:+ tokens) (run : stop <:+ middle) (inner : rest <:+ stop) :
    Laid file low high (between middle stop) :=
  (laid.after outer (inner.trans run)).before run inner

end Laid

/-- The span from a token to the last significant one of the run after it. -/
def extent (first : Token) (run : List Token) : Span :=
  { file := first.span.file
    start := first.span.start
    stop := ((lastSignificant? run).getD first).span.stop.later first.span.stop }

theorem through_eq_extent (first : Token) (tokens rest : List Token) :
    first.through tokens rest = extent first (between tokens rest) := rfl

theorem extent_nil (first : Token) : extent first [] = first.span := by
  change Span.mk _ _ (first.span.stop.later first.span.stop) = first.span
  rw [Position.later_self]

theorem lastSignificant?_cases (run : List Token) :
    (lastSignificant? run = none ∧ ∀ token ∈ run, token.isSignificant = false) ∨
    ∃ front last back, run = front ++ last :: back ∧ lastSignificant? run = some last ∧
      last.isSignificant = true ∧ ∀ token ∈ back, token.isSignificant = false := by
  induction run with
  | nil => exact Or.inl ⟨rfl, fun token member => by cases member⟩
  | cons head others ih =>
      rcases ih with ⟨none, silent⟩ | ⟨front, last, back, split, some, significant, silent⟩
      · unfold lastSignificant? at none
        by_cases here : head.isSignificant = true
        · right
          refine ⟨[], head, others, rfl, ?_, here, silent⟩
          rw [lastSignificant?, List.filter_cons_of_pos here, List.getLast?_cons, none]
          rfl
        · left
          refine ⟨?_, ?_⟩
          · rw [lastSignificant?, List.filter_cons_of_neg here]
            exact none
          · intro token member
            rcases List.mem_cons.mp member with same | later
            · rw [same]
              exact eq_false_of_ne_true here
            · exact silent token later
      · right
        refine ⟨head :: front, last, back, by rw [split]; rfl, ?_, significant, silent⟩
        unfold lastSignificant? at some ⊢
        rw [List.filter_cons]
        split
        · rw [List.getLast?_cons, some]
          rfl
        · exact some

/-- A token and the run after it, laid between two offsets, with the extent that
the token gives to them. -/
structure Spans (file : String) (low high : Int) (first : Token) (run : List Token) : Prop where
  between : (extent first run).Between file low high
  within : Laid file (extent first run).start.offset (extent first run).stop.offset (first :: run)
  last : ∃ token ∈ first :: run, token.isSignificant = true ∧
    (extent first run).stop = token.span.stop

theorem spans_of_laid {file : String} {low high : Int} {first : Token} {run : List Token}
    (plain : first.isTrivia = false) (laid : Laid file low high (first :: run)) :
    Spans file low high first run := by
  obtain ⟨middle, lower, here, rest⟩ := laid
  have firstSignificant := isSignificant_of_stands plain here
  obtain ⟨unmarked, ⟨named, after, nonempty, before⟩⟩ := here plain
  rcases lastSignificant?_cases run with
    ⟨none, silent⟩ | ⟨front, last, back, split, some, significant, silent⟩
  · have stop : (extent first run).stop = first.span.stop := by
      rw [extent, none]
      exact Position.later_self _
    have upper := rest.le
    refine ⟨⟨named, after, ?_, ?_⟩, ?_, ⟨first, List.mem_cons_self, firstSignificant, stop⟩⟩
    · rw [stop]
      exact nonempty
    · rw [stop]
      exact Int.le_trans before upper
    · have nowhere :=
        Laid.of_trivia file first.span.stop.offset (Laid.isTrivia_of_silent rest silent)
      rw [stop]
      refine ⟨first.span.stop.offset, Int.le_of_lt nonempty, ?_, nowhere⟩
      exact fun _ => ⟨unmarked, named, Int.le_refl _, nonempty, Int.le_refl _⟩
  · rw [split] at rest
    obtain ⟨lastLow, frontLaid, lastHigh, _, lastHere, backLaid⟩ := rest.split
    obtain ⟨lastUnmarked, ⟨lastNamed, lastAfter, lastNonempty, lastBefore⟩⟩ :=
      lastHere (isTrivia_of_isSignificant significant)
    have frontLe := frontLaid.le
    have upper := backLaid.le
    have stop : (extent first run).stop = last.span.stop := by
      rw [extent, some]
      apply Position.later_of_offset_lt
      change first.span.stop.offset < last.span.stop.offset
      omega
    refine ⟨⟨named, after, ?_, ?_⟩, ?_, ⟨last, ?_, significant, stop⟩⟩
    · rw [stop]
      change first.span.start.offset < last.span.stop.offset
      omega
    · rw [stop]
      exact Int.le_trans lastBefore upper
    · rw [stop, split]
      have starting : first.span.start.offset ≤ middle := by omega
      refine ⟨middle, starting, fun _ => ⟨unmarked, named, Int.le_refl _, nonempty, before⟩, ?_⟩
      refine frontLaid.append (widens_stands file) ⟨last.span.stop.offset, by omega, ?_, ?_⟩
      · exact fun _ => ⟨lastUnmarked, lastNamed, lastAfter, lastNonempty, Int.le_refl _⟩
      · exact Laid.of_trivia file _ (Laid.isTrivia_of_silent backLaid silent)
    · rw [split]
      exact List.mem_cons_of_mem first (List.mem_append_right front List.mem_cons_self)

/-- The span that `first` stamps on what is read after it, and the room this
leaves to the parts. -/
theorem through_of_laid {file : String} {low high : Int} {first : Token} {tokens rest : List Token}
    (plain : first.isTrivia = false) (ahead : rest <:+ tokens)
    (laid : Laid file low high (between (first :: tokens) rest)) :
    (first.through tokens rest).Between file low high ∧
      Laid file (first.through tokens rest).start.offset
        (first.through tokens rest).stop.offset (between tokens rest) := by
  rw [between_cons ahead] at laid
  have spans := spans_of_laid plain laid
  exact ⟨spans.between, spans.within.tail⟩

theorem between_of_taken {file : String} {low high : Int} {tokens : List Token}
    {taken : Taken tokens} (plain : taken.token.isTrivia = false)
    (laid : Laid file low high (between tokens taken.rest)) :
    taken.token.span.Between file low high := by
  obtain ⟨token, rest, split⟩ := taken
  subst split
  obtain ⟨here, _⟩ := through_of_laid plain List.suffix_rfl laid
  rw [through_eq_extent, between_self, extent_nil] at here
  exact here

theorem isTrivia_of_kind {token : Token} {kind : Kind} (same : token.kind = kind)
    (plain : kind.isTrivia = false) : token.isTrivia = false := by
  rw [isTrivia, same, plain]

end Token

end SageNotation
