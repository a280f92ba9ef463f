import SageNotation.Document.Signature
import SageNotation.Diagnostic.Finding

/-!
Help for words: what a keyword means, the signature behind a declared name, and
the words that complete an input.
-/

namespace SageNotation.Editor

/-- Every at-keyword with its explanation, in alphabetical order. -/
def keywordHelp : List (String × String) :=
  [("@compare_with", "Comparison against another refinement."),
    ("@decision", "Design decision recorded in a refinement."),
    ("@ens", "Postcondition that holds on exit."),
    ("@fn", "Function: `@fn name(params) -> Type`, then `@req`/`@ens` and a body."),
    ("@impl", "Implementation block; its body is kept as raw text."),
    ("@inferred_effect", "Machine-inferred effect: `effect ← \"reason\"`."),
    ("@inferred_ens", "Machine-inferred postcondition: `cond ← \"reason\"`."),
    ("@inferred_req", "Machine-inferred precondition: `cond ← \"reason\"`."),
    ("@invariant", "Condition that always holds; may wrap onto following lines."),
    ("@maps", "How the refinement maps onto its parent."),
    ("@mod", "Module declaration: `@mod name` with an optional description."),
    ("@op", "Operation, shaped like `@fn`."),
    ("@preserves", "Properties of the parent a refinement keeps, checked with ✓."),
    ("@property", "Informal property of a specification."),
    ("@refine", "Refinement: `@refine Parent as Child [tag]`."),
    ("@req", "Precondition that must hold on entry."),
    ("@spec", "Abstract specification with `@property`, `@state` and `@invariant`."),
    ("@state", "State fields, one `name: Type` per line."),
    ("@type", "Record type: `@type Name = \x7b field: Type, ... \x7d`.")]

def plainKeywords : List String :=
  ["as", "else", "if", "let", "ret"]

/-- The first declaration of each name, in order of first declaration. -/
def declarationsByName : List Item → Registry
  | [] => []
  | .declaration decl :: others =>
      let later := declarationsByName others
      match decl.introduces? with
      | none => later
      | some name =>
          if name.isEmpty then later
          else (name, decl) :: later.filter (·.1 != name)
  | _ :: others => declarationsByName others

def hoverText (declarations : Registry) (word : String) : Option String :=
  match keywordHelp.lookup word with
  | some help => some ("**" ++ word ++ "**\n\n" ++ help)
  | none =>
      (declarations.find? word).map fun decl =>
        let heading := "```sage\n" ++ decl.signature?.getD "" ++ "\n```"
        match decl.description? with
        | some text => if text.isEmpty then heading else heading ++ "\n\n" ++ text
        | none => heading

inductive CompletionKind where
  | keyword | type | function | operation | module | contract
  deriving DecidableEq

structure Completion where
  label : String
  kind : CompletionKind
  detail : Option String
  documentation : Option String
  deriving DecidableEq

namespace Completion

def kindOf : Declaration → CompletionKind
  | .type _ => .type
  | .function _ => .function
  | .operation _ => .operation
  | .module _ => .module
  | _ => .contract

def ofKeyword (word : String) : Completion :=
  { label := word
    kind := .keyword
    detail := none
    documentation := keywordHelp.lookup word }

def ofDeclaration (name : String) (decl : Declaration) : Completion :=
  { label := name
    kind := kindOf decl
    detail := decl.signature?
    documentation := none }

/-- Only the first completion under each label. -/
def distinct : List Completion → List Completion
  | [] => []
  | first :: others => first :: (distinct others).filter (·.label != first.label)

end Completion

def completions (declarations : Registry) : List Completion :=
  Completion.distinct
    ((keywordHelp.map (·.1) ++ plainKeywords).map Completion.ofKeyword ++
      declarations.map fun entry => Completion.ofDeclaration entry.1 entry.2)

end SageNotation.Editor
