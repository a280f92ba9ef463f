import SageNotation.Proofs.Grammar.Derivations
import SageNotation.Proofs.Signature.Documents

/-!
Printed types read back in place.

A type is legible when its names are values of identifiers (`isName_iff`).  The tokens
of such a type as it is printed may stand anywhere among other tokens: behind whatever
comes before them, and in front of whatever does not open arguments.  A type is read
there that differs from the printed one in spans only, and nothing behind it is
touched (`readsTypeAt_format`).  The legible types are the only ones of which this
holds (`legible_iff_reads_back`), and their text tells them apart
(`format_eq_format_iff`).
-/

namespace SageNotation

open Token

def TypeExpr.printed (type : TypeExpr) (file : String) : List Token :=
  Grammar.beforeEnd (tokenize type.format file)

/-! ### Spans are not printed -/

mutual

theorem TypeExpr.format_unplaced : ∀ type : TypeExpr, type.unplaced.format = type.format
  | .named name _ => by rw [TypeExpr.unplaced, TypeExpr.format, TypeExpr.format]
  | .generic name args _ => by
      rw [TypeExpr.unplaced, TypeExpr.format, TypeExpr.format, formatTypes_unplaced args]
  | .record fields _ => by
      rw [TypeExpr.unplaced, TypeExpr.format, TypeExpr.format, formatFields_unplaced fields]
  | .verbatim text => by rw [TypeExpr.unplaced]

theorem formatTypes_unplaced : ∀ types : List TypeExpr,
    formatTypes (unplacedTypes types) = formatTypes types
  | [] => rfl
  | type :: others => by
      rw [unplacedTypes, formatTypes, formatTypes, type.format_unplaced,
        formatTypes_unplaced others]

theorem formatFields_unplaced : ∀ fields : List Field,
    formatFields (unplacedFields fields) = formatFields fields
  | [] => rfl
  | .mk name type _ :: others => by
      rw [unplacedFields, formatFields, formatFields, type.format_unplaced,
        formatFields_unplaced others]

end

theorem unplacedTypes_eq_nil {types : List TypeExpr} : unplacedTypes types = [] ↔ types = [] := by
  cases types with
  | nil => exact Iff.rfl
  | cons type others => simp only [unplacedTypes, reduceCtorEq]

mutual

theorem TypeExpr.legible_unplaced : ∀ type : TypeExpr, type.unplaced.Legible ↔ type.Legible
  | .named name _ => by rw [TypeExpr.unplaced, TypeExpr.Legible, TypeExpr.Legible]
  | .generic name args _ => by
      rw [TypeExpr.unplaced, TypeExpr.Legible, TypeExpr.Legible, Ne, unplacedTypes_eq_nil,
        typesLegible_unplaced args]
  | .record fields _ => by
      rw [TypeExpr.unplaced, TypeExpr.Legible, TypeExpr.Legible, fieldsLegible_unplaced fields]
  | .verbatim text => by rw [TypeExpr.unplaced]

theorem typesLegible_unplaced : ∀ types : List TypeExpr,
    TypesLegible (unplacedTypes types) ↔ TypesLegible types
  | [] => Iff.rfl
  | type :: others => by
      rw [unplacedTypes, TypesLegible, TypesLegible, type.legible_unplaced,
        typesLegible_unplaced others]

theorem fieldsLegible_unplaced : ∀ fields : List Field,
    FieldsLegible (unplacedFields fields) ↔ FieldsLegible fields
  | [] => Iff.rfl
  | .mk name type _ :: others => by
      rw [unplacedFields, FieldsLegible, FieldsLegible, type.legible_unplaced,
        fieldsLegible_unplaced others]

end

namespace Grammar

/-! ### The tokens of a printed type -/

section Printed

variable {type : TypeExpr} {run rest : List Token}

theorem map_sign_printed (legible : type.Legible) (file : String) :
    (type.printed file).map sign = type.signs := by
  have written := legible.writes.reads [] detached_nil
  rw [List.append_nil, signs_nil] at written
  exact map_sign_beforeEnd written file

theorem lacks_of_isNext {kind : Kind} (other : isNext kind rest = false) :
    Lacks kind (rest.map sign) := by
  cases rest with
  | nil => exact lacks_nil kind
  | cons token behind => exact lacks_cons (beq_eq_false_iff_ne.mp other) _ _

/-- Tokens with the signs of a type are read as the type, and no token behind them is
taken. -/
theorem gives_of_signs (legible : type.Legible) (written : run.map sign = type.signs)
    (alone : isNext .less rest = false) :
    ∃ found, Gives (typeExpr (run ++ rest)) found rest ∧ found.unplaced = type.unplaced := by
  have whole : (run ++ rest).map sign = type.signs ++ rest.map sign := by
    rw [List.map_append, written]
  obtain ⟨reading, read, same, left⟩ := typeExpr_restores legible whole (lacks_of_isNext alone)
  -- What is left ends the tokens, as `rest` does, and has as many of them.
  have counted : reading.rest.length = rest.length := by
    rw [← List.length_map sign, left, List.length_map]
  have within := List.suffix_of_suffix_length_le reading.suffix (List.suffix_append run rest)
    counted.le
  exact ⟨reading.value, ⟨reading, read, rfl, within.eq_of_length counted⟩, same⟩

end Printed

/-! ### Reading what was printed -/

/-- Printing a type and reading it gives the type again, up to spans, in every context:
whatever tokens come before, and whatever comes behind unless it opens arguments.  The
printed tokens are all that is taken. -/
theorem readsTypeAt_format {type : TypeExpr} (legible : type.Legible) (file : String)
    (front : List Token) {next : Token} (rest : List Token) (apart : next.kind ≠ .less) :
    ∃ found, ReadsTypeAt (front ++ (type.printed file ++ next :: rest)) front.length
        (type.printed file) found ∧ found.unplaced = type.unplaced := by
  have alone : isNext .less (next :: rest) = false := beq_eq_false_iff_ne.mpr apart
  obtain ⟨found, read, same⟩ := gives_of_signs legible (map_sign_printed legible file) alone
  refine ⟨found, ⟨next :: rest, ?_, ?_⟩, same⟩
  · rw [List.drop_left]
  · rw [List.drop_left]
    exact read

def tableType : TypeExpr :=
  .generic "Map"
    [.named "Key" .nowhere,
      .record
        [.mk "at" (.named "()" .nowhere) .nowhere,
          .mk "many" (.generic "Map" [.record [] .nowhere] .nowhere) .nowhere] .nowhere] .nowhere

theorem readsTypeAt_format_of_table :
    tableType.Legible ∧ tableType.format = "Map<Key, \x7b at: (), many: Map<\x7b\x7d> \x7d>" ∧
      ∃ found, ReadsTypeAt
        (tokenize "-> List<" "a.sage" ++
          (tableType.printed "b.sage" ++ ⟨.greater, ">", .nowhere⟩ :: tokenize "<" "c.sage"))
        (tokenize "-> List<" "a.sage").length (tableType.printed "b.sage") found ∧
        found.unplaced = tableType.unplaced := by
  have named : IsName "Map" ∧ IsName "Key" ∧ IsName "at" ∧ IsName "many" := by
    refine ⟨⟨'M', ['a', 'p'], rfl, ?_⟩, ⟨'K', ['e', 'y'], rfl, ?_⟩, ⟨'a', ['t'], rfl, ?_⟩,
      ⟨'m', ['a', 'n', 'y'], rfl, ?_⟩⟩ <;> exact ⟨List.all_eq_true.mp rfl, Or.inr ⟨rfl, by decide⟩⟩
  have legible : tableType.Legible := by
    simp [tableType, TypeExpr.Legible, TypesLegible, FieldsLegible, named]
  refine ⟨legible, by decide +kernel, ?_⟩
  exact readsTypeAt_format legible "b.sage" _ _ (by decide)

/-- A type is legible exactly if its printed tokens by themselves are read as the type,
up to spans. -/
theorem legible_iff_reads_back {type : TypeExpr} (file : String) :
    type.Legible ↔
      ∃ found, Gives (typeExpr (type.printed file)) found [] ∧ found.unplaced = type.unplaced := by
  constructor
  · intro legible
    have alone : isNext .less [] = false := rfl
    have read := gives_of_signs legible (map_sign_printed legible file) alone
    rw [List.append_nil] at read
    exact read
  · rintro ⟨found, ⟨reading, read, rfl, _⟩, same⟩
    have legible := typeExpr_legible (named_tokenize type.format file) read
    rw [← TypeExpr.legible_unplaced, same] at legible
    exact (TypeExpr.legible_unplaced type).mp legible

/-- Legible types have the same text only where they differ in spans at most. -/
theorem format_eq_format_iff {type other : TypeExpr} (legible : type.Legible)
    (readable : other.Legible) :
    type.format = other.format ↔ type.unplaced = other.unplaced := by
  constructor
  · intro printed
    have shared : type.printed "" = other.printed "" := by
      rw [TypeExpr.printed, printed, ← TypeExpr.printed]
    have first := (legible_iff_reads_back "").mp legible
    rw [shared] at first
    obtain ⟨_, ⟨reading, read, rfl, _⟩, same⟩ := first
    obtain ⟨_, ⟨again, reread, rfl, _⟩, resembles⟩ := (legible_iff_reads_back "").mp readable
    cases read.symm.trans reread
    exact same.symm.trans resembles
  · intro same
    rw [← type.format_unplaced, same, other.format_unplaced]

end Grammar

end SageNotation
