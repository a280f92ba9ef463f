import SageNotation.Document.Tree
import SageNotation.Proofs.Source.Order

/-!
Trees whose spans are nested.

A tree fits between two offsets when each of its nodes is a stretch of its own
text inside the stretch of the node around it, and the items of a list follow
each other.  `Fits` is defined by recursion and is what routines establish;
`nested_of_reaches` reads off what it says about every node of the tree.
-/

namespace SageNotation.Tree

mutual

def Fits (file : String) : Int → Int → Tree → Prop
  | low, high, node _ fields span =>
      span.Between file low high ∧
        FieldsFit file span.start.offset span.stop.offset fields
  | low, high, list items => ItemsFit file low high items
  | _, _, text _ => True
  | _, _, choice _ => True
  | _, _, flag _ => True
  | _, _, absent => True

def FieldsFit (file : String) : Int → Int → List (String × Tree) → Prop
  | _, _, [] => True
  | low, high, (_, value) :: others => Fits file low high value ∧ FieldsFit file low high others

def ItemsFit (file : String) : Int → Int → List Tree → Prop
  | low, high, [] => low ≤ high
  | low, high, item :: others =>
      ∃ middle, low ≤ middle ∧ Fits file low middle item ∧ ItemsFit file middle high others

end

variable {file : String} {low high : Int}

theorem itemsFit_iff {items : List Tree} :
    ItemsFit file low high items ↔ InOrder (Fits file) low high items := by
  induction items generalizing low with
  | nil => simp only [ItemsFit, InOrder]
  | cons item others ih => simp only [ItemsFit, InOrder, ih]

theorem fieldsFit_iff {fields : List (String × Tree)} :
    FieldsFit file low high fields ↔ ∀ field ∈ fields, Fits file low high field.2 := by
  induction fields with
  | nil => simp only [FieldsFit, List.not_mem_nil, false_implies, implies_true]
  | cons field others ih => simp only [FieldsFit, ih, List.forall_mem_cons]

mutual

theorem fits_widen (file : String) : ∀ (tree : Tree) {low high lower higher : Int},
    Fits file low high tree → lower ≤ low → high ≤ higher → Fits file lower higher tree
  | node _ _ _, _, _, _, _, fits, below, above => by
      simp only [Fits] at fits ⊢
      exact ⟨Span.widens_between file fits.1 below above, fits.2⟩
  | list items, _, _, _, _, fits, below, above => by
      simp only [Fits] at fits ⊢
      exact itemsFit_widen file items fits below above
  | text _, _, _, _, _, _, _, _ => by simp only [Fits]
  | choice _, _, _, _, _, _, _, _ => by simp only [Fits]
  | flag _, _, _, _, _, _, _, _ => by simp only [Fits]
  | absent, _, _, _, _, _, _, _ => by simp only [Fits]

theorem itemsFit_widen (file : String) : ∀ (items : List Tree) {low high lower higher : Int},
    ItemsFit file low high items → lower ≤ low → high ≤ higher →
      ItemsFit file lower higher items
  | [], _, _, _, _, fits, below, above => by
      simp only [ItemsFit] at fits ⊢
      omega
  | item :: others, _, _, _, _, fits, below, above => by
      simp only [ItemsFit] at fits ⊢
      obtain ⟨middle, lowMiddle, here, rest⟩ := fits
      exact ⟨middle, Int.le_trans below lowMiddle, fits_widen file item here below (Int.le_refl _),
        itemsFit_widen file others rest (Int.le_refl _) above⟩

end

theorem widens_fits (file : String) : Widens (Fits file) :=
  fun _ _ _ _ tree fits below above => fits_widen file tree fits below above

/-! ### Every node of a tree -/

/-- The second tree is the first or a part of it, at any depth. -/
inductive Reaches : Tree → Tree → Prop where
  | here (tree : Tree) : Reaches tree tree
  | field {label name : String} {fields : List (String × Tree)} {span : Span} {value tree : Tree}
      (member : (name, value) ∈ fields) (further : Reaches value tree) :
      Reaches (node label fields span) tree
  | item {items : List Tree} {value tree : Tree} (member : value ∈ items)
      (further : Reaches value tree) : Reaches (list items) tree

theorem reaches_node_cases {label : String} {fields : List (String × Tree)} {span : Span}
    {tree : Tree} (reached : Reaches (node label fields span) tree) :
    tree = node label fields span ∨ ∃ name value, (name, value) ∈ fields ∧ Reaches value tree := by
  cases reached with
  | here => exact Or.inl rfl
  | field member further => exact Or.inr ⟨_, _, member, further⟩

def span? : Tree → Option Span
  | node _ _ span => some span
  | _ => none

/-- A node whose span holds those of its parts, with the items of every list one
after another. -/
structure Encloses (span : Span) (fields : List (String × Tree)) : Prop where
  parts : ∀ name part inner, (name, part) ∈ fields → part.span? = some inner → inner.Inside span
  items : ∀ name items item inner, (name, list items) ∈ fields → item ∈ items →
    item.span? = some inner → inner.Inside span
  ordered : ∀ name items, (name, list items) ∈ fields →
    items.Pairwise fun earlier later => ∀ front back, earlier.span? = some front →
      later.span? = some back → front.Precedes back

theorem between_of_fits {tree : Tree} {span : Span} (fits : Fits file low high tree)
    (stamped : tree.span? = some span) : span.Between file low high := by
  cases tree with
  | node label fields inner =>
      simp only [Fits] at fits
      rw [← Option.some.inj stamped]
      exact fits.1
  | list | text | choice | flag | absent => cases stamped

theorem encloses_of_fieldsFit {span : Span} {fields : List (String × Tree)}
    (fits : FieldsFit span.file span.start.offset span.stop.offset fields) :
    Encloses span fields := by
  have each := fieldsFit_iff.mp fits
  have inside : ∀ {inner : Span}, inner.Between span.file span.start.offset span.stop.offset →
      inner.Inside span := fun here => ⟨here.named, here.after, here.before⟩
  have listed : ∀ {name : String} {items : List Tree}, (name, list items) ∈ fields →
      InOrder (Fits span.file) span.start.offset span.stop.offset items := by
    intro name items member
    have fitting := each _ member
    simp only [Fits] at fitting
    exact itemsFit_iff.mp fitting
  refine ⟨?_, ?_, ?_⟩
  · intro name part inner member stamped
    exact inside (between_of_fits (each _ member) stamped)
  · intro name items item inner member within stamped
    have fitting := (listed member).stands_of_mem (widens_fits span.file) within
    exact inside (between_of_fits fitting stamped)
  · intro name items member
    apply (listed member).pairwise (widens_fits span.file)
    intro earlier later lower middle upper before after front back frontAt backAt
    exact Span.precedes_of_between (between_of_fits before frontAt) (between_of_fits after backAt)

theorem nested_of_reaches {tree : Tree} {label : String} {fields : List (String × Tree)}
    {span : Span} (fits : Fits file low high tree) (reached : Reaches tree (node label fields span)) :
    span.Between file low high ∧ Encloses span fields := by
  generalize same : node label fields span = target at reached
  induction reached generalizing low high with
  | here =>
      subst same
      simp only [Fits] at fits
      refine ⟨fits.1, encloses_of_fieldsFit ?_⟩
      rw [fits.1.named]
      exact fits.2
  | field member _ ih =>
      simp only [Fits] at fits
      obtain ⟨around, parts⟩ := fits
      obtain ⟨between, encloses⟩ := ih (fieldsFit_iff.mp parts _ member) same
      exact ⟨Span.widens_between file between around.after around.before, encloses⟩
  | item member _ ih =>
      simp only [Fits] at fits
      exact ih ((itemsFit_iff.mp fits).stands_of_mem (widens_fits file) member) same

end SageNotation.Tree
