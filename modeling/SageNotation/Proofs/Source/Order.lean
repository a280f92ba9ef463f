import SageNotation.Source.Position

/-!
Things that stand one after another in a text.

`InOrder` lays out a list between two offsets: every item gets a stretch of its
own, and the stretches follow each other.  What it means to stand between two
offsets is a parameter, so that spans, tokens and whole clauses are laid out in
the same way.  `Span.Between` is that notion for spans.
-/

namespace SageNotation

/-- Items that stand one after another between two offsets. -/
def InOrder {α : Type} (stands : Int → Int → α → Prop) : Int → Int → List α → Prop
  | low, high, [] => low ≤ high
  | low, high, item :: others =>
      ∃ middle, low ≤ middle ∧ stands low middle item ∧ InOrder stands middle high others

/-- What stands between two offsets also stands between wider ones. -/
def Widens {α : Type} (stands : Int → Int → α → Prop) : Prop :=
  ∀ ⦃low high lower higher item⦄, stands low high item → lower ≤ low → high ≤ higher →
    stands lower higher item

namespace InOrder

variable {α β : Type} {stands : Int → Int → α → Prop} {low high middle : Int} {items : List α}

theorem le (ordered : InOrder stands low high items) : low ≤ high := by
  induction items generalizing low with
  | nil => exact ordered
  | cons item others ih =>
      obtain ⟨middle, lower, _, rest⟩ := ordered
      exact Int.le_trans lower (ih rest)

theorem widen (widens : Widens stands) {lower higher : Int}
    (ordered : InOrder stands low high items) (below : lower ≤ low) (above : high ≤ higher) :
    InOrder stands lower higher items := by
  induction items generalizing low lower with
  | nil =>
      have within : low ≤ high := ordered
      change lower ≤ higher
      omega
  | cons item others ih =>
      obtain ⟨middle, lowMiddle, here, rest⟩ := ordered
      refine ⟨middle, Int.le_trans below lowMiddle, ?_, ih rest (Int.le_refl _)⟩
      exact widens here below (Int.le_refl _)

theorem split {first second : List α} (ordered : InOrder stands low high (first ++ second)) :
    ∃ middle, InOrder stands low middle first ∧ InOrder stands middle high second := by
  induction first generalizing low with
  | nil => exact ⟨low, Int.le_refl low, ordered⟩
  | cons item others ih =>
      obtain ⟨next, lower, here, rest⟩ := ordered
      obtain ⟨middle, front, back⟩ := ih rest
      exact ⟨middle, ⟨next, lower, here, front⟩, back⟩

theorem append (widens : Widens stands) {first second : List α}
    (front : InOrder stands low middle first) (back : InOrder stands middle high second) :
    InOrder stands low high (first ++ second) := by
  induction first generalizing low with
  | nil => exact back.widen widens front (Int.le_refl _)
  | cons item others ih =>
      obtain ⟨next, lower, here, rest⟩ := front
      exact ⟨next, lower, here, ih rest⟩

theorem stands_of_mem (widens : Widens stands) {item : α}
    (ordered : InOrder stands low high items) (member : item ∈ items) :
    stands low high item := by
  induction items generalizing low with
  | nil => cases member
  | cons head others ih =>
      obtain ⟨middle, lower, here, rest⟩ := ordered
      rcases List.mem_cons.mp member with same | later
      · rw [same]
        exact widens here (Int.le_refl _) rest.le
      · exact widens (ih rest later) lower (Int.le_refl _)

/-- Each item with its stretch yields a run of its own, and these follow each
other as the items do. -/
theorem flatMap {yields : Int → Int → β → Prop} (widens : Widens yields) {parts : α → List β}
    (ordered : InOrder stands low high items)
    (each : ∀ item ∈ items, ∀ lower upper, lower ≤ upper → stands lower upper item →
      InOrder yields lower upper (parts item)) :
    InOrder yields low high (items.flatMap parts) := by
  induction items generalizing low with
  | nil => exact ordered
  | cons item others ih =>
      obtain ⟨middle, lower, here, rest⟩ := ordered
      rw [List.flatMap_cons]
      have front := each item List.mem_cons_self low middle lower here
      have back := ih rest fun other member => each other (List.mem_cons_of_mem item member)
      exact front.append widens back

theorem imp {others : Int → Int → α → Prop} (ordered : InOrder stands low high items)
    (each : ∀ item ∈ items, ∀ lower upper, stands lower upper item → others lower upper item) :
    InOrder others low high items := by
  induction items generalizing low with
  | nil => exact ordered
  | cons item rest ih =>
      obtain ⟨middle, lower, here, back⟩ := ordered
      have later := ih back fun other member => each other (List.mem_cons_of_mem item member)
      exact ⟨middle, lower, each item List.mem_cons_self low middle here, later⟩

theorem pairwise (widens : Widens stands) {before : α → α → Prop}
    (ordered : InOrder stands low high items)
    (apart : ∀ earlier later lower middle upper, stands lower middle earlier →
      stands middle upper later → before earlier later) :
    items.Pairwise before := by
  induction items generalizing low with
  | nil => exact List.Pairwise.nil
  | cons item others ih =>
      obtain ⟨middle, _, here, rest⟩ := ordered
      refine List.Pairwise.cons ?_ (ih rest)
      intro later member
      exact apart item later low middle high here (rest.stands_of_mem widens member)

end InOrder

namespace Span

/-- A stretch of the named text that is not empty and lies between two offsets. -/
structure Between (file : String) (low high : Int) (span : Span) : Prop where
  named : span.file = file
  after : low ≤ span.start.offset
  nonempty : span.start.offset < span.stop.offset
  before : span.stop.offset ≤ high

theorem widens_between (file : String) : Widens (Between file) := by
  intro low high lower higher span here below above
  exact ⟨here.named, Int.le_trans below here.after, here.nonempty,
    Int.le_trans here.before above⟩

/-- One stretch ends before the other starts. -/
def Precedes (earlier later : Span) : Prop :=
  earlier.stop.offset ≤ later.start.offset

theorem precedes_of_between {file : String} {earlier later : Span} {low middle high : Int}
    (front : earlier.Between file low middle) (back : later.Between file middle high) :
    earlier.Precedes later :=
  Int.le_trans front.before back.after

structure Inside (inner outer : Span) : Prop where
  file : inner.file = outer.file
  start : outer.start.offset ≤ inner.start.offset
  stop : inner.stop.offset ≤ outer.stop.offset

end Span

namespace Position

theorem later_self (position : Position) : position.later position = position := by
  unfold later
  split <;> rfl

theorem later_of_offset_lt {left right : Position} (before : right.offset < left.offset) :
    left.later right = left := by
  have notBefore : left.isBefore right = false := by
    simp only [isBefore, Bool.or_eq_false_iff, decide_eq_false_iff_not, Bool.and_eq_false_iff,
      beq_eq_false_iff_ne]
    omega
  simp only [later, notBefore, Bool.false_eq_true, if_false]

end Position

end SageNotation
