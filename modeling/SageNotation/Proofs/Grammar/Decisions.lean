import SageNotation.Proofs.Grammar.Origins
import SageNotation.Proofs.Prose.Refinements
import SageNotation.Proofs.Token.Symbols

/-!
Decisions in refinements, in each of their spellings.

A string or a line of tokens is recorded as a decision behind two exclamation marks or
behind its keyword, and the marks may also stand at the end.  Every spelling adds one
decision and nothing else (`refinementClause_of_spells`).  Two spellings of the same
wording have the same text apart from two cases: only leading marks trim the blanks of a
string, and marks behind the line of a keyword stay in the text (`Spelling.Departs`).
-/

namespace SageNotation.Grammar

open Token

/-- What a decision says: the value of a string, or the text of a line. -/
inductive Wording where
  | literal (word : Token)
  | line (run : List Token)

namespace Wording

def tokens : Wording → List Token
  | literal word => [word]
  | line run => run

def text : Wording → String
  | literal word => word.value
  | line run => render run

/-- A string, or a line with something on it that does not start with one. -/
def Sound : Wording → Prop
  | literal word => word.kind = .string
  | line run =>
      run ≠ [] ∧ (∀ token ∈ run, token.endsLine = false) ∧ ∀ token ∈ run.head?, token.kind ≠ .string

end Wording

/-- The exclamation marks stand in front of the wording or behind it, the keyword in front
of it, or both around it. -/
inductive Spelling where
  | marked | suffixed | stated | closed

/-- These tokens spell a decision of the wording.  Only a string may stand in front of
the marks by itself. -/
inductive Spells (wording : Wording) : Spelling → List Token → Prop where
  | marked {bangs : Token} (mark : bangs.kind = .bang2) :
      Spells wording .marked (bangs :: wording.tokens)
  | suffixed {word bangs : Token} (literal : wording = .literal word) (mark : bangs.kind = .bang2) :
      Spells wording .suffixed (wording.tokens ++ [bangs])
  | stated {keyword : Token} (clause : keyword.kind = .clause .decision) :
      Spells wording .stated (keyword :: wording.tokens)
  | closed {keyword bangs : Token} (clause : keyword.kind = .clause .decision)
      (mark : bangs.kind = .bang2) :
      Spells wording .closed (keyword :: (wording.tokens ++ [bangs]))

theorem Wording.Sound.spoken {wording : Wording} (sound : wording.Sound) :
    ∀ token ∈ wording.tokens, token.isTrivia = false := by
  intro token member
  cases wording with
  | literal word =>
      rw [List.mem_singleton.mp member, isTrivia, sound]
      rfl
  | line run => exact isTrivia_of_endsLine (sound.2.1 token member)

theorem Spells.mem {wording : Wording} {spelling : Spelling} {run : List Token}
    (spells : Spells wording spelling run) : ∀ token ∈ wording.tokens, token ∈ run := by
  intro token member
  cases spells with
  | marked | stated => exact List.mem_cons_of_mem _ member
  | suffixed => exact List.mem_append_left _ member
  | closed => exact List.mem_cons_of_mem _ (List.mem_append_left _ member)

namespace Spelling

def text : Spelling → Wording → String
  | marked, wording => Text.trim wording.text
  | closed, .line run => render run ++ " !!"
  | _, wording => wording.text

/-- The spellings whose text is not that of the wording. -/
def Departs : Spelling → Wording → Prop
  | marked, .literal word => Text.trim word.value ≠ word.value
  | closed, .line _ => True
  | _, _ => False

end Spelling

/-! ### One clause -/

section Clause

variable {wording : Wording} {spelling : Spelling} {first word : Token}
  {rest run spelled more : List Token}

def AtLineEnd (more : List Token) : Prop :=
  ∀ token ∈ more.head?, token.endsLine = true

theorem line_of_atLineEnd (spoken : ∀ token ∈ run, token.endsLine = false) (ends : AtLineEnd more) :
    line (run ++ more) = run ∧ afterLine (run ++ more) = more := by
  have going : ∀ token ∈ run, (!token.endsLine) = true := by
    intro token member
    rw [spoken token member]
    rfl
  rw [line, afterLine, List.takeWhile_append_of_pos going, List.dropWhile_append_of_pos going]
  cases more with
  | nil => exact ⟨List.append_nil run, rfl⟩
  | cons next others =>
      simp only [List.takeWhile_cons, List.dropWhile_cons, ends next rfl, Bool.not_true,
        Bool.false_eq_true, if_false, List.append_nil, and_self]

theorem dropOne_of_atLineEnd (ends : AtLineEnd more) : dropOne .bang2 more = more := by
  cases more with
  | nil => rfl
  | cons next others =>
      apply if_neg
      intro bangs
      have stops := ends next rfl
      rw [endsLine, isTrivia, bangs] at stops
      cases stops

theorem stringOrLine_literal (string : word.kind = .string) (more : List Token) :
    (Reading.stringOrLine (word :: more)).value = word.value ∧
      (Reading.stringOrLine (word :: more)).rest = more := by
  rw [Reading.stringOrLine, if_pos string]
  exact ⟨rfl, rfl⟩

theorem stringOrLine_line (nonempty : run ≠ []) (spoken : ∀ token ∈ run, token.endsLine = false)
    (plain : ∀ token ∈ run.head?, token.kind ≠ .string) (ends : AtLineEnd more) :
    (Reading.stringOrLine (run ++ more)).value = render run ∧
      (Reading.stringOrLine (run ++ more)).rest = more := by
  have same := line_of_atLineEnd spoken ends
  obtain ⟨opening, others, rfl⟩ := List.exists_cons_of_ne_nil nonempty
  rw [List.cons_append, Reading.stringOrLine, if_neg (plain opening rfl)]
  exact ⟨congrArg render same.1, same.2⟩

theorem stringOrLine_wording (sound : wording.Sound) (ends : AtLineEnd more) :
    (Reading.stringOrLine (wording.tokens ++ more)).value = wording.text ∧
      (Reading.stringOrLine (wording.tokens ++ more)).rest = more := by
  cases wording with
  | literal word => exact stringOrLine_literal sound more
  | line run => exact stringOrLine_line sound.1 sound.2.1 sound.2.2 ends

theorem stringOrLine_closed {bangs : Token} (sound : wording.Sound) (mark : bangs.kind = .bang2)
    (written : bangs.text = "!!") (ends : AtLineEnd more) :
    (Reading.stringOrLine (wording.tokens ++ [bangs] ++ more)).value =
        Spelling.text .closed wording ∧
      dropOne .bang2 (Reading.stringOrLine (wording.tokens ++ [bangs] ++ more)).rest = more := by
  cases wording with
  | literal word =>
      obtain ⟨value, behind⟩ := stringOrLine_literal sound (bangs :: more)
      refine ⟨value, ?_⟩
      change dropOne .bang2 (Reading.stringOrLine (word :: bangs :: more)).rest = more
      rw [behind, dropOne, if_pos mark]
  | line run =>
      obtain ⟨nonempty, spoken, plain⟩ := sound
      have closing : ∀ token ∈ run ++ [bangs], token.endsLine = false := by
        rw [List.forall_mem_append, List.forall_mem_singleton, endsLine, isTrivia, mark]
        exact ⟨spoken, rfl⟩
      have opening : ∀ token ∈ (run ++ [bangs]).head?, token.kind ≠ .string := by
        rw [List.head?_append_of_ne_nil _ nonempty]
        exact plain
      obtain ⟨value, behind⟩ := stringOrLine_line
        (List.append_ne_nil_of_left_ne_nil nonempty _) closing opening ends
      -- The line takes the marks with it, and none is left to drop.
      refine ⟨?_, ?_⟩
      · change (Reading.stringOrLine (run ++ [bangs] ++ more)).value = _
        rw [value, render_append nonempty (List.cons_ne_nil bangs []), render_singleton, written]
        exact String.append_assoc
      · change dropOne .bang2 (Reading.stringOrLine (run ++ [bangs] ++ more)).rest = more
        rw [behind, dropOne_of_atLineEnd ends]

theorem refinementClause_of_bang2 (mark : first.kind = .bang2) (earlier : List RefinementClause)
    (rest : List Token) : refinementClause earlier first rest =
      .read ((decisionMark rest).map fun node span => .decision (node span)) := by
  rw [refinementClause, mark]

theorem refinementClause_of_decision (clause : first.kind = .clause .decision)
    (earlier : List RefinementClause) (rest : List Token) : refinementClause earlier first rest =
      .read ((decisionClause rest).map fun node span => .decision (node span)) := by
  rw [refinementClause, clause]

theorem refinementClause_of_string {bangs : Token} (string : first.kind = .string)
    (mark : bangs.kind = .bang2) (earlier : List RefinementClause) (more : List Token) :
    refinementClause earlier first (bangs :: more) =
      .read ⟨fun span => .decision ⟨first.value, span⟩, more, List.suffix_cons bangs more⟩ := by
  rw [refinementClause, string]
  change stringClause earlier first.value (bangs :: more) = _
  rw [stringClause, expect_of_kind mark]

/-- In every spelling a decision is read to the end of its line. -/
theorem refinementClause_of_spells (spells : Spells wording spelling spelled)
    (split : first :: rest = spelled ++ more) (sound : wording.Sound) (ends : AtLineEnd more)
    (written : ∀ token ∈ spelled, token.kind = .bang2 → token.text = "!!")
    (earlier : List RefinementClause) :
    ∃ reading, refinementClause earlier first rest = .read reading ∧ reading.rest = more ∧
      ∀ span, reading.value span = .decision ⟨spelling.text wording, span⟩ := by
  cases spells with
  | marked mark =>
      obtain ⟨rfl, rfl⟩ := List.cons.inj split
      obtain ⟨value, behind⟩ := stringOrLine_wording sound ends
      refine ⟨_, refinementClause_of_bang2 mark earlier _, behind, fun span => ?_⟩
      exact congrArg (fun text => RefinementClause.decision ⟨Text.trim text, span⟩) value
  | suffixed literal mark =>
      subst literal
      obtain ⟨rfl, rfl⟩ := List.cons.inj split
      exact ⟨_, refinementClause_of_string sound mark earlier more, rfl, fun span => rfl⟩
  | stated clause =>
      obtain ⟨rfl, rfl⟩ := List.cons.inj split
      obtain ⟨value, behind⟩ := stringOrLine_wording sound ends
      refine ⟨_, refinementClause_of_decision clause earlier _, ?_, fun span => ?_⟩
      · exact (congrArg (dropOne .bang2) behind).trans (dropOne_of_atLineEnd ends)
      · exact congrArg (fun text => RefinementClause.decision ⟨text, span⟩) value
  | closed clause mark =>
      obtain ⟨rfl, rfl⟩ := List.cons.inj split
      have marks := written _ (List.mem_cons_of_mem _ (List.mem_append_right _ List.mem_cons_self)) mark
      obtain ⟨value, behind⟩ := stringOrLine_closed sound mark marks ends
      refine ⟨_, refinementClause_of_decision clause earlier _, behind, fun span => ?_⟩
      exact congrArg (fun text => RefinementClause.decision ⟨text, span⟩) value

/-- The text is that of the wording, unless the spelling is one that departs from it. -/
theorem text_eq_iff (spelling : Spelling)
    (standing : ∀ token ∈ wording.tokens, Standing token.text) :
    spelling.text wording = wording.text ↔ ¬ spelling.Departs wording := by
  cases wording with
  | literal word =>
      cases spelling with
      | marked => exact not_not.symm
      | suffixed | stated | closed => exact iff_of_true rfl id
  | line run =>
      cases spelling with
      | marked => exact iff_of_true (trim_render standing) id
      | suffixed | stated => exact iff_of_true rfl id
      | closed =>
          apply iff_of_false
          · intro same
            have lengths := congrArg String.length same
            rw [Spelling.text, Wording.text, String.length_append] at lengths
            exact absurd lengths (Nat.ne_of_gt (Nat.lt_add_of_pos_right (by decide)))
          · exact not_not_intro trivial

end Clause

/-! ### Bodies of refinements -/

section Bodies

variable {keyword first : Token} {rest body behind more : List Token} {decl : Refinement}
  {before : List RefinementClause} {wording : Wording} {spelling : Spelling}

/-- Behind the keyword stands the header of a refinement, and then the body with its
clauses. -/
structure OpensBody (keyword : Token) (rest body : List Token) : Prop where
  kind : keyword.kind = .declare .refine
  header : ∃ parent name, expect .identifier rest = some parent ∧
    refinementName parent.rest = some name ∧ body = name.rest

theorem OpensBody.suffix (opens : OpensBody keyword rest body) : body <:+ rest := by
  obtain ⟨parent, name, _, _, rfl⟩ := opens.header
  exact name.suffix.trans parent.suffix

theorem item_of_opensBody (opens : OpensBody keyword rest body) :
    ∃ decl, (item keyword rest).value.1 = .declaration (.refinement decl) ∧
      decl.decisions =
        (clauses refinementClause [] body).value.1.filterMap RefinementClause.decision? := by
  obtain ⟨parent, name, found, named, rfl⟩ := opens.header
  have read : ∃ reading, refinement rest = some reading ∧ ∀ span, ∃ decl,
      reading.value.1 span = .refinement decl ∧ decl.decisions =
        (clauses refinementClause [] name.rest).value.1.filterMap RefinementClause.decision? := by
    rw [refinement, found]
    simp only [named]
    exact ⟨_, rfl, fun span => ⟨_, rfl, rfl⟩⟩
  obtain ⟨reading, found, each⟩ := read
  obtain ⟨decl, same, decisions⟩ := each (keyword.through rest reading.rest)
  have form : itemForm keyword rest = asDeclaration (refinement rest) := by
    rw [itemForm, opens.kind]
    rfl
  refine ⟨decl, ?_, decisions⟩
  rw [item, form, found, ← same]
  rfl

theorem exists_opensBody (read : (item keyword rest).value.1 = .declaration (.refinement decl)) :
    ∃ body, OpensBody keyword rest body := by
  obtain ⟨word, reading, kind, found, same⟩ := declared_of_item read
  have refines : word = .refine := by
    rw [← word_of_declared found, ← same]
    rfl
  subst refines
  change refinement rest = some reading at found
  unfold refinement at found
  split at found
  · cases found
  · rename_i parent taken
    split at found
    · cases found
    · rename_i name named
      exact ⟨name.rest, kind, parent, name, taken, named, rfl⟩

/-- The clauses of the body come to a decision of this wording, which has the rest of its
line to itself. -/
structure Decides (body : List Token) (before : List RefinementClause) (wording : Wording)
    (spelling : Spelling) (first : Token) (behind more : List Token) : Prop where
  comes : ComesTo refinementClause [] body before first behind
  spelled : ∃ run, Spells wording spelling run ∧ first :: behind = run ++ more
  sound : wording.Sound
  ends : AtLineEnd more

/-- The decision stands behind those of the clauses before, and is the only thing that its
clause adds: the clauses go on with the tokens behind it. -/
structure Records (decl : Refinement) (body : List Token) (before : List RefinementClause)
    (decision : Decision) (more : List Token) : Prop where
  goesOn : (clauses refinementClause [] body).value =
    (clauses refinementClause (.decision decision :: before) more).value
  recorded : ∃ later, (clauses refinementClause [] body).value.1 =
      before.reverse ++ .decision decision :: later ∧
    decl.decisions = before.reverse.filterMap RefinementClause.decision? ++
      decision :: later.filterMap RefinementClause.decision?

theorem records_of_decides (decisions : decl.decisions =
      (clauses refinementClause [] body).value.1.filterMap RefinementClause.decision?)
    (decides : Decides body before wording spelling first behind more)
    (written : ∀ token ∈ first :: behind, token.kind = .bang2 → token.text = "!!") :
    Records decl body before ⟨spelling.text wording, first.through behind more⟩ more := by
  obtain ⟨run, spells, split⟩ := decides.spelled
  have marks : ∀ token ∈ run, token.kind = .bang2 → token.text = "!!" := by
    intro token member
    apply written token
    rw [split]
    exact List.mem_append_left more member
  obtain ⟨reading, read, rfl, value⟩ :=
    refinementClause_of_spells spells split decides.sound decides.ends marks before
  have stamped : (reading.stamp first).value =
      .decision ⟨spelling.text wording, first.through behind reading.rest⟩ := value _
  have goesOn := clauses_of_comesTo decides.comes read
  obtain ⟨later, around, _⟩ := clauses_around decides.comes read
  rw [stamped] at goesOn around
  refine ⟨goesOn, later, around, ?_⟩
  rw [decisions, around, List.filterMap_append]
  rfl

/-- Every spelling of a decision in the body of a refinement adds exactly one decision.  Its
text is that of the wording unless the spelling departs from it, with blanks at the ends of
a string behind leading marks, or with closing marks behind the line of a keyword. -/
theorem parse_decides (source file : String) :
    (∀ keyword rest body before wording spelling first behind more,
      keyword :: rest <:+ beforeEnd (tokenize source file) → OpensBody keyword rest body →
      Decides body before wording spelling first behind more →
        ∃ decl, (item keyword rest).value.1 = .declaration (.refinement decl) ∧
          Records decl body before ⟨spelling.text wording, first.through behind more⟩ more ∧
          (spelling.text wording = wording.text ↔ ¬ spelling.Departs wording)) ∧
    ∀ decl, .declaration (.refinement decl) ∈ (Document.parse source file).body →
      ∃ keyword rest body, keyword :: rest <:+ beforeEnd (tokenize source file) ∧
        OpensBody keyword rest body ∧
        (item keyword rest).value.1 = .declaration (.refinement decl) := by
  constructor
  · intro keyword rest body before wording spelling first behind more ahead opens decides
    obtain ⟨decl, read, decisions⟩ := item_of_opensBody opens
    have within : ∀ token ∈ first :: behind, token ∈ beforeEnd (tokenize source file) := by
      intro token member
      have inner := opens.suffix.subset (decides.comes.suffix.subset member)
      exact ahead.subset (List.mem_cons_of_mem keyword inner)
    refine ⟨decl, read, records_of_decides decisions decides ?_, text_eq_iff spelling ?_⟩
    · exact fun token member => text_of_bang2 (mem_beforeEnd.mp (within token member)).1
    · obtain ⟨run, spells, split⟩ := decides.spelled
      intro token member
      have listed : token ∈ first :: behind := by
        rw [split]
        exact List.mem_append_left more (spells.mem token member)
      exact standing_of_mem_beforeEnd (within token listed) (decides.sound.spoken token member)
  · intro decl member
    obtain ⟨keyword, rest, ahead, _, read⟩ := exists_of_mem_parse member
    obtain ⟨body, opens⟩ := exists_opensBody read
    exact ⟨keyword, rest, body, ahead, opens, read⟩

def closedSource : String := "@refine A\n@decision use jwt !!"

theorem parse_decides_of_closed :
    ∃ keyword rest body first behind wording, ∃ decl : Refinement,
      keyword :: rest <:+ beforeEnd (tokenize closedSource "a.sage") ∧
      OpensBody keyword rest body ∧ Decides body [] wording .closed first behind [] ∧
      (item keyword rest).value.1 = .declaration (.refinement decl) ∧
      Records decl body [] ⟨Spelling.text .closed wording, first.through behind []⟩ [] ∧
      (Spelling.text .closed wording = wording.text ↔ ¬ Spelling.Departs .closed wording) := by
  have kinds : (beforeEnd (tokenize closedSource "a.sage")).map (·.kind) =
      [.declare .refine, .identifier, .newline, .clause .decision, .identifier, .identifier,
        .bang2] := by
    decide +kernel
  obtain ⟨keyword, _, found, refines, kinds⟩ := List.map_eq_cons_iff.mp kinds
  obtain ⟨parent, _, rfl, named, kinds⟩ := List.map_eq_cons_iff.mp kinds
  obtain ⟨newline, _, rfl, breaks, kinds⟩ := List.map_eq_cons_iff.mp kinds
  obtain ⟨clause, _, rfl, states, kinds⟩ := List.map_eq_cons_iff.mp kinds
  obtain ⟨word, _, rfl, spoken, kinds⟩ := List.map_eq_cons_iff.mp kinds
  obtain ⟨other, _, rfl, further, kinds⟩ := List.map_eq_cons_iff.mp kinds
  obtain ⟨bangs, _, rfl, mark, kinds⟩ := List.map_eq_cons_iff.mp kinds
  cases List.map_eq_nil_iff.mp kinds
  have opens : OpensBody keyword [parent, newline, clause, word, other, bangs]
      [newline, clause, word, other, bangs] := by
    refine ⟨refines, _, .nothing ⟨none, none⟩, expect_of_kind named _, ?_, rfl⟩
    rw [refinementName, expect, if_neg (by rw [breaks]; decide)]
  have sound : Wording.Sound (.line [word, other]) := by
    refine ⟨List.cons_ne_nil _ _, ?_, ?_⟩
    · simp only [List.forall_mem_cons, endsLine, isTrivia, spoken, further]
      exact ⟨rfl, rfl, List.forall_mem_nil _⟩
    · rintro token same
      cases same
      rw [spoken]
      decide
  have decides : Decides [newline, clause, word, other, bangs] [] (.line [word, other]) .closed
      clause [word, other, bangs] [] := by
    refine ⟨.blank ?_ (.here ?_), ⟨_, .closed states mark, rfl⟩, sound, ?_⟩
    · rw [isTrivia, breaks]
      rfl
    · rw [isTrivia, states]
      rfl
    · intro token none
      cases none
  have ahead : [keyword, parent, newline, clause, word, other, bangs] <:+
      beforeEnd (tokenize closedSource "a.sage") := by
    rw [found]
  obtain ⟨decl, read, records, departs⟩ := (parse_decides closedSource "a.sage").1 keyword _ _ []
    (.line [word, other]) .closed clause _ _ ahead opens decides
  exact ⟨keyword, _, _, clause, _, _, decl, ahead, opens, decides, read, records, departs⟩

def decisionTexts : Item → List String
  | .declaration (.refinement decl) => decl.decisions.map (·.text)
  | _ => []

/-- The same line and the same string, with two texts each. -/
theorem decision_texts_differ :
    (Document.parse "@refine A\n!! use jwt\n@decision use jwt !!" "a.sage").body.map
        decisionTexts = [["use jwt", "use jwt !!"]] ∧
      (Document.parse "@refine A\n!! \" x \"\n\" x \" !!" "a.sage").body.map decisionTexts =
        [["x", " x "]] := by
  decide +kernel

end Bodies

end SageNotation.Grammar
