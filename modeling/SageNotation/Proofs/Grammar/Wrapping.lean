import Mathlib.Data.List.TakeWhile
import SageNotation.Proofs.Grammar.Origins
import SageNotation.Proofs.Likeness.Comments
import SageNotation.Proofs.Source.Rows
import SageNotation.Proofs.Token.Firm

/-!
Invariants that go on over several lines.

A comment is the last token of its line, so reading on from line to line stops at
nothing but the first token of a line, and the lines that are read are the longest
run of lines with an accepted start (`followingLines_eq`).  The expression of an
invariant is the readable text of its own line and of that run.  Plain keywords are
among the accepted starts: without the lines behind such a keyword the expression
would be a shorter one (`parse_wraps`).
-/

namespace SageNotation

namespace Token

/-! ### Lines between newlines -/

/-- The lines of a run, parted at the newlines. -/
def rows (tokens : List Token) : List (List Token) :=
  tokens.splitOnP (·.kind == .newline)

/-- A line without its comment. -/
def uncommented (row : List Token) : List Token :=
  row.filter (·.kind != .comment)

/-- The readable text of lines, one after the other, without their comments. -/
def rowsText (rows : List (List Token)) : String :=
  render (rows.flatMap uncommented)

theorem of_mem_rows {tokens row : List Token} {token : Token} (member : token ∈ row)
    (listed : row ∈ rows tokens) : token ∈ tokens ∧ token.kind ≠ .newline :=
  (SourceText.mem_of_mem_splitOnP member listed).imp_right beq_eq_false_iff_ne.mp

/-- The first line of a run that starts with a token: the token is its first one too,
unless it is a newline and the line is blank. -/
theorem rows_cons (first : Token) (others : List Token) :
    ∃ own later, rows (first :: others) = own :: later ∧
      (first.kind = .newline ∧ own = [] ∨ first.kind ≠ .newline ∧ ∃ more, own = first :: more) := by
  rw [rows, List.splitOnP_cons_eq_if_modifyHead]
  split
  · rename_i newline
    exact ⟨_, _, rfl, Or.inl ⟨beq_iff_eq.mp newline, rfl⟩⟩
  · rename_i other
    obtain ⟨own, later, parted⟩ :=
      List.exists_cons_of_ne_nil (List.splitOnP_ne_nil (·.kind == .newline) others)
    rw [parted, List.modifyHead_cons]
    exact ⟨_, _, rfl, Or.inr ⟨fun newline => other (beq_iff_eq.mpr newline), own, rfl⟩⟩

theorem rows_of_unbroken {row : List Token} (unbroken : ∀ token ∈ row, token.kind ≠ .newline) :
    rows row = [row] :=
  List.splitOnP_eq_singleton fun token member => beq_false_of_ne (unbroken token member)

theorem rows_append {row : List Token} (unbroken : ∀ token ∈ row, token.kind ≠ .newline)
    {newline : Token} (kind : newline.kind = .newline) (more : List Token) :
    rows (row ++ newline :: more) = row :: rows more := by
  have parted : rows (row ++ newline :: more) = rows row ++ rows more :=
    List.splitOnP_append_cons row more (beq_iff_eq.mpr kind)
  rw [parted, rows_of_unbroken unbroken]
  rfl

/-! ### Texts of lines -/

theorem intercalate_render {runs : List (List Token)} (nonempty : ∀ run ∈ runs, run ≠ []) :
    String.intercalate " " (runs.map render) = render runs.flatten := by
  induction runs with
  | nil => rfl
  | cons run others ih =>
      obtain ⟨here, later⟩ := List.forall_mem_cons.mp nonempty
      cases others with
      | nil =>
          rw [List.map_singleton, String.intercalate_singleton, List.flatten_singleton]
      | cons next others =>
          have further : (next :: others).flatten ≠ [] := by
            rw [List.flatten_cons]
            exact List.append_ne_nil_of_left_ne_nil (later next List.mem_cons_self) _
          rw [List.flatten_cons, render_append here further, ← ih later]
          exact String.intercalate_cons_cons

theorem isEmpty_render {run : List Token} (standing : ∀ token ∈ run, Standing token.text) :
    (render run).isEmpty = run.isEmpty := by
  by_cases empty : run = []
  · rw [empty]
    rfl
  · have full : render run ≠ "" := by
      intro same
      apply (standing_render standing empty).1
      rw [same]
      rfl
    rw [List.isEmpty_eq_false_iff.mpr empty, ← Bool.not_eq_true, String.isEmpty_iff]
    exact full

theorem render_ne_of_append {run more : List Token} (standing : ∀ token ∈ more, Standing token.text)
    (further : more ≠ []) : render (run ++ more) ≠ render run := by
  have full := (standing_render standing further).1
  intro same
  by_cases nonempty : run = []
  · rw [nonempty, List.nil_append, render_nil] at same
    rw [same] at full
    exact full rfl
  · rw [render_append nonempty further] at same
    have lengths := congrArg String.length same
    rw [String.length_append, String.length_append] at lengths
    have gap : " ".length = 1 := rfl
    omega

end Token

namespace Grammar

open Token

theorem joinNonempty_render {runs : List (List Token)}
    (standing : ∀ run ∈ runs, ∀ token ∈ run, Standing token.text) :
    joinNonempty " " (runs.map render) = render runs.flatten := by
  have kept : runs.filter ((fun text => !text.isEmpty) ∘ render) =
      runs.filter fun run => !run.isEmpty :=
    List.filter_congr fun run member => congrArg not (isEmpty_render (standing run member))
  rw [joinNonempty, List.filter_map, kept, intercalate_render, List.flatten_filter_not_isEmpty]
  intro run member
  have full := (List.mem_filter.mp member).2
  rw [Bool.not_eq_true', List.isEmpty_eq_false_iff] at full
  exact full

/-! ### Reading on from line to line -/

section Lines

variable {tokens : List Token}

theorem kind_ne_of_mem_line {token : Token} (member : token ∈ line tokens) :
    token.kind ≠ .newline ∧ token.kind ≠ .comment := by
  have spoken := isTrivia_of_mem_line member
  constructor
  all_goals
    intro same
    rw [isTrivia, same] at spoken
    cases spoken

theorem uncommented_line (tokens : List Token) : uncommented (line tokens) = line tokens :=
  List.filter_eq_self.mpr fun _ member => bne_iff_ne.mpr (kind_ne_of_mem_line member).2

theorem kind_of_isTrivia {token : Token} (trivia : token.isTrivia = true) :
    token.kind = .newline ∨ token.kind = .comment := by
  cases kind : token.kind with
  | newline => exact Or.inl rfl
  | comment => exact Or.inr rfl
  | _ =>
      rw [isTrivia, kind] at trivia
      cases trivia

theorem kind_of_afterLine (unended : ∀ token ∈ tokens, token.kind ≠ .eof) {first : Token}
    {others : List Token} (behind : afterLine tokens = first :: others) :
    first.kind = .newline ∨ first.kind = .comment := by
  have unmarked : first.kind ≠ .eof :=
    unended first ((afterLine_suffix tokens).subset (by rw [behind]; exact List.mem_cons_self))
  have stopped := List.head?_dropWhile_not (fun token : Token => !token.endsLine) tokens
  rw [afterLine] at behind
  rw [behind, List.head?_cons] at stopped
  apply kind_of_isTrivia
  rw [← endsLine_of_unmarked unmarked]
  simpa only [Bool.not_eq_false'] using stopped

theorem commented_row (tokens : List Token) {comment : Token} (kind : comment.kind = .comment) :
    uncommented (line tokens ++ [comment]) = line tokens ∧
      ∀ token ∈ line tokens ++ [comment], token.kind ≠ .newline := by
  constructor
  · rw [uncommented, List.filter_append, List.filter_cons_of_neg, List.filter_nil,
      List.append_nil]
    · exact uncommented_line tokens
    · rw [kind]
      decide
  · intro token member
    rcases List.mem_append.mp member with before | last
    · exact (kind_ne_of_mem_line before).1
    · rw [List.mem_singleton.mp last, kind]
      decide

theorem exists_first_row (commentsLast : CommentsLast tokens)
    (unended : ∀ token ∈ tokens, token.kind ≠ .eof) :
    ∃ own, uncommented own = line tokens ∧
      ((rows tokens = [own] ∧ dropOne .comment (afterLine tokens) = []) ∨
        ∃ newline more, newline.kind = .newline ∧ newline :: more <:+ tokens ∧
          rows tokens = own :: rows more ∧
          dropOne .comment (afterLine tokens) = newline :: more) := by
  have unbroken : ∀ token ∈ line tokens, token.kind ≠ .newline :=
    fun token member => (kind_ne_of_mem_line member).1
  have whole := line_append_afterLine tokens
  cases behind : afterLine tokens with
  | nil =>
      rw [behind, List.append_nil] at whole
      exact ⟨line tokens, uncommented_line tokens,
        Or.inl ⟨(congrArg rows whole.symm).trans (rows_of_unbroken unbroken), rfl⟩⟩
  | cons first others =>
      rw [behind] at whole
      rcases kind_of_afterLine unended behind with newline | comment
      · have passed : dropOne .comment (first :: others) = first :: others := by
          rw [dropOne, newline]
          rfl
        refine ⟨line tokens, uncommented_line tokens,
          Or.inr ⟨first, others, newline, ⟨_, whole⟩, ?_, passed⟩⟩
        rw [← rows_append unbroken newline others]
        exact congrArg rows whole.symm
      · obtain ⟨text, single⟩ := commented_row tokens comment
        have passed : dropOne .comment (first :: others) = others := if_pos comment
        refine ⟨line tokens ++ [first], text, ?_⟩
        rw [passed]
        cases others with
        | nil => exact Or.inl ⟨(congrArg rows whole.symm).trans (rows_of_unbroken single), rfl⟩
        | cons next more =>
            have after := (List.isChain_cons_cons.mp (commentsLast.suffix ⟨_, whole⟩)).1 comment
            have present : next ∈ tokens := by
              rw [← whole]
              exact List.mem_append_right _ (List.mem_cons_of_mem first List.mem_cons_self)
            have newline := after.resolve_right (unended next present)
            refine Or.inr ⟨next, more, newline, ⟨line tokens ++ [first], ?_⟩, ?_, rfl⟩
            · rw [List.append_assoc]
              exact whole
            · rw [← rows_append single newline more, List.append_assoc]
              exact congrArg rows whole.symm

/-- Lines that are not blank and start with no at-keyword, comment, string or separator. -/
def goesOn : List Token → Bool
  | [] => false
  | first :: _ =>
      !(first.kind.isAtWord || first.kind == .comment || first.kind == .string ||
        first.kind == .dash3)

/-- Lines that start with one of the words let, if, else, ret and as. -/
def startsPlain : List Token → Bool
  | [] => false
  | first :: _ =>
      match first.kind with
      | .plain _ => true
      | _ => false

theorem continuesInvariant_first {first : Token} {others own : List Token}
    {later : List (List Token)} (unmarked : first.kind ≠ .eof)
    (parted : rows (first :: others) = own :: later) :
    continuesInvariant first = goesOn own := by
  obtain ⟨row, more, same, shape⟩ := rows_cons first others
  cases parted.symm.trans same
  rcases shape with ⟨newline, rfl⟩ | ⟨unbroken, more, rfl⟩
  · rw [continuesInvariant, endsLine, isTrivia, newline]
    rfl
  · have trivia : first.isTrivia = (first.kind == .comment) := by
      cases kind : first.kind with
      | newline => exact absurd kind unbroken
      | _ => rw [isTrivia, kind]; rfl
    rw [continuesInvariant, endsLine_of_unmarked unmarked, trivia]
    rfl

theorem nextLine?_of_split {continues : Token → Bool} {newline first : Token}
    {others : List Token} (split : dropOne .comment tokens = newline :: first :: others)
    (kind : newline.kind = .newline) :
    nextLine? continues tokens =
      if continues first then some ⟨newline, first :: others, split⟩ else none := by
  rw [nextLine?, expect_of_split split kind]

theorem followingLines_eq (commentsLast : CommentsLast tokens)
    (unended : ∀ token ∈ tokens, token.kind ≠ .eof) :
    ∃ own later, rows tokens = own :: later ∧ uncommented own = line tokens ∧
      (followingLines continuesInvariant (afterLine tokens)).value =
        (later.takeWhile goesOn).map uncommented := by
  induction length : tokens.length using Nat.strong_induction_on generalizing tokens with
  | _ size ih =>
      obtain ⟨own, text, ⟨single, ended⟩ | ⟨newline, more, kind, ahead, parted, behind⟩⟩ :=
        exists_first_row commentsLast unended
      · refine ⟨own, [], single, text, ?_⟩
        have missing : nextLine? continuesInvariant (afterLine tokens) = none := by
          rw [nextLine?]
          split
          · rfl
          · rename_i taken _
            cases ended.symm.trans taken.split
        rw [followingLines, missing]
        rfl
      · refine ⟨own, rows more, parted, text, ?_⟩
        cases more with
        | nil =>
            have missing : nextLine? continuesInvariant (afterLine tokens) = none := by
              rw [nextLine?, expect_of_split behind kind]
            rw [followingLines, missing]
            rfl
        | cons first others =>
            have next : nextLine? continuesInvariant (afterLine tokens) =
                if continuesInvariant first then some ⟨newline, first :: others, behind⟩
                else none := nextLine?_of_split behind kind
            have inner := (List.suffix_cons newline (first :: others)).trans ahead
            have unmarked := unended first (inner.subset List.mem_cons_self)
            have shorter : (first :: others).length < size := by
              have total := ahead.length_le
              rw [List.length_cons, length] at total
              exact total
            obtain ⟨row, later, split, line, value⟩ := ih _ shorter (commentsLast.suffix inner)
              (fun token member => unended token (inner.subset member)) rfl
            rw [split]
            cases starts : continuesInvariant first with
            | false =>
                rw [if_neg (ne_true_of_eq_false starts)] at next
                rw [followingLines, next, List.takeWhile_cons_of_neg]
                · rfl
                · rw [← continuesInvariant_first unmarked split, starts]
                  exact Bool.false_ne_true
            | true =>
                rw [if_pos starts] at next
                rw [followingLines, next, List.takeWhile_cons_of_pos, List.map_cons, line, ← value]
                rw [← continuesInvariant_first unmarked split, starts]

end Lines

/-! ### Invariants of a text -/

/-- An invariant that was read from its own line and from a run of the lines behind it. -/
structure Wraps (tokens : List Token) (node : Invariant) (keyword : Token) (own : List Token)
    (later : List (List Token)) : Prop where
  placed : ∃ rest, keyword :: rest <:+ beforeEnd tokens ∧ rows rest = own :: later
  kind : keyword.kind = .clause .invariant
  start : node.span.start = keyword.span.start
  expression : node.expression = rowsText (own :: later.takeWhile goesOn)

section Texts

variable {source file : String}

theorem commentsLast_tokenize (source file : String) :
    CommentsLast (beforeEnd (tokenize source file)) := by
  have whole : CommentsLast (tokenize source file) := commentsLast_scan file .first source.toList
  have parted : beforeEnd (tokenize source file) ++
      (tokenize source file).dropWhile (·.kind != .eof) = tokenize source file :=
    List.takeWhile_append_dropWhile
  rw [CommentsLast, ← parted] at whole
  exact whole.left_of_append

theorem standing_rows {keyword : Token} {rest row : List Token}
    (ahead : keyword :: rest <:+ beforeEnd (tokenize source file)) (listed : row ∈ rows rest) :
    ∀ token ∈ uncommented row, Standing token.text := by
  intro token member
  obtain ⟨here, spoken⟩ := List.mem_filter.mp member
  obtain ⟨within, unbroken⟩ := of_mem_rows here listed
  have silent : token.isTrivia = false := by
    cases kind : token.kind with
    | newline => exact absurd kind unbroken
    | comment =>
        rw [kind] at spoken
        cases spoken
    | _ => rw [isTrivia, kind]; rfl
  exact standing_of_mem_beforeEnd (ahead.subset (List.mem_cons_of_mem keyword within)) silent

theorem exists_wraps {node : Invariant}
    (stems : Stems InvariantAt (beforeEnd (tokenize source file)) node) :
    ∃ keyword own later, Wraps (tokenize source file) node keyword own later ∧
      ∀ row ∈ own :: later, ∀ token ∈ uncommented row, Standing token.text := by
  obtain ⟨keyword, rest, ahead, kind, same⟩ := stems
  have inner := (List.suffix_cons keyword rest).trans ahead
  obtain ⟨own, later, split, text, value⟩ :=
    followingLines_eq ((commentsLast_tokenize source file).suffix inner)
      fun token member => kind_ne_eof_of_mem_beforeEnd (inner.subset member)
  have standing : ∀ row ∈ own :: later, ∀ token ∈ uncommented row, Standing token.text :=
    fun row listed => standing_rows ahead (split ▸ listed)
  refine ⟨keyword, own, later, ⟨⟨rest, ahead, split⟩, kind, ?_, ?_⟩, standing⟩
  · rw [same]
    rfl
  · have taken : ∀ row ∈ own :: later.takeWhile goesOn, row ∈ own :: later :=
      fun row listed => List.cons_subset_cons own (List.takeWhile_subset _) listed
    have each : ∀ run ∈ (own :: later.takeWhile goesOn).map uncommented,
        ∀ token ∈ run, Standing token.text := by
      intro run listed
      obtain ⟨row, member, rfl⟩ := List.mem_map.mp listed
      exact standing row (taken row member)
    have all : ∀ token ∈ (own :: later.takeWhile goesOn).flatMap uncommented,
        Standing token.text := by
      intro token member
      obtain ⟨row, listed, within⟩ := List.mem_flatMap.mp member
      exact standing row (taken row listed) token within
    calc node.expression
        = Text.trim (joinNonempty " "
            ((line rest :: (followingLines continuesInvariant (afterLine rest)).value).map
              render)) := by rw [same]; rfl
      _ = Text.trim (joinNonempty " "
            (((own :: later.takeWhile goesOn).map uncommented).map render)) := by
          rw [value, ← text, ← List.map_cons]
      _ = rowsText (own :: later.takeWhile goesOn) := by
          rw [joinNonempty_render each, ← List.flatMap_def, trim_render all, rowsText]

end Texts

theorem uncommented_ne_nil {row : List Token} (goes : goesOn row = true) : uncommented row ≠ [] := by
  cases row with
  | nil => cases goes
  | cons first more =>
      have spoken : (first.kind != .comment) = true := by
        rw [goesOn, Bool.not_eq_true', Bool.or_eq_false_iff, Bool.or_eq_false_iff,
          Bool.or_eq_false_iff] at goes
        rw [bne, goes.1.1.2]
        rfl
      have kept : uncommented (first :: more) = first :: uncommented more :=
        List.filter_cons_of_pos spoken
      rw [kept]
      exact List.cons_ne_nil _ _

/-- Leaving out the lines from the first plain keyword on gives the same text only if there
is no such line. -/
theorem rowsText_takeWhile_iff {own : List Token} {run : List (List Token)}
    (goes : ∀ row ∈ run, goesOn row = true)
    (standing : ∀ row ∈ run, ∀ token ∈ uncommented row, Standing token.text) :
    rowsText (own :: run) = rowsText (own :: run.takeWhile fun row => !startsPlain row) ↔
      ∀ row ∈ run, startsPlain row = false := by
  constructor
  · intro same
    have whole : run.takeWhile (fun row => !startsPlain row) ++
        run.dropWhile (fun row => !startsPlain row) = run := List.takeWhile_append_dropWhile
    cases behind : run.dropWhile fun row => !startsPlain row with
    | nil =>
        intro row member
        have plain := List.dropWhile_eq_nil_iff.mp behind row member
        rw [Bool.not_eq_true'] at plain
        exact plain
    | cons row others =>
        exfalso
        rw [behind] at whole
        have within : ∀ other ∈ row :: others, other ∈ run := fun other listed =>
          whole ▸ List.mem_append_right _ listed
        have further : (row :: others).flatMap uncommented ≠ [] :=
          List.append_ne_nil_of_left_ne_nil
            (uncommented_ne_nil (goes row (within row List.mem_cons_self))) _
        have texts : ∀ token ∈ (row :: others).flatMap uncommented, Standing token.text := by
          intro token member
          obtain ⟨other, listed, here⟩ := List.mem_flatMap.mp member
          exact standing other (within other listed) token here
        apply render_ne_of_append texts further
        rw [← List.flatMap_append, List.cons_append, whole]
        exact same
  · intro plain
    rw [List.takeWhile_eq_self_iff.mpr]
    intro row member
    rw [plain row member]
    rfl

theorem takeWhile_goesOn_plain (later : List (List Token)) :
    (later.takeWhile fun row => goesOn row && !startsPlain row) =
      (later.takeWhile goesOn).takeWhile fun row => !startsPlain row := by
  rw [List.takeWhile_takeWhile]
  congr 1
  funext row
  rw [Bool.decide_and, Bool.decide_eq_true, Bool.decide_eq_true, Bool.and_comm]

/-- An invariant is read from its line and the longest run of lines that goes on.  Plain
keywords do not end this run: the text is that of the lines in front of the first one only
if there is none. -/
theorem parse_wraps {source file : String} {decl : Declaration} {node : Invariant}
    (member : .declaration decl ∈ (Document.parse source file).body)
    (listed : node ∈ decl.invariants) :
    ∃ keyword own later, Wraps (tokenize source file) node keyword own later ∧
      (node.expression =
          rowsText (own :: later.takeWhile fun row => goesOn row && !startsPlain row) ↔
        ∀ row ∈ later.takeWhile goesOn, startsPlain row = false) := by
  obtain ⟨keyword, own, later, wraps, standing⟩ :=
    exists_wraps ((stemming_of_mem_parse member).invariants node listed)
  refine ⟨keyword, own, later, wraps, ?_⟩
  rw [wraps.expression, takeWhile_goesOn_plain]
  apply rowsText_takeWhile_iff
  · exact fun row within => List.all_eq_true.mp List.all_takeWhile row within
  · exact fun row within => standing row (List.mem_cons_of_mem own (List.takeWhile_subset _ within))

def wrappedSource : String := "@spec A\n@invariant x > 0\nlet y = 1"

def expressions : Item → List String
  | .declaration decl => decl.invariants.map (·.expression)
  | .inferred _ | .separator _ | .statement _ | .part _ => []

theorem parse_wraps_over_binding :
    ∃ decl node, .declaration decl ∈ (Document.parse wrappedSource "a.sage").body ∧
      node ∈ decl.invariants ∧ node.expression = "x > 0 let y = 1" ∧
      ∃ keyword own later, Wraps (tokenize wrappedSource "a.sage") node keyword own later ∧
        (node.expression =
            rowsText (own :: later.takeWhile fun row => goesOn row && !startsPlain row) ↔
          ∀ row ∈ later.takeWhile goesOn, startsPlain row = false) := by
  have read : "x > 0 let y = 1" ∈
      (Document.parse wrappedSource "a.sage").body.flatMap expressions := by
    decide +kernel
  obtain ⟨item, member, found⟩ := List.mem_flatMap.mp read
  cases item with
  | declaration decl =>
      obtain ⟨node, listed, same⟩ := List.mem_map.mp found
      exact ⟨decl, node, member, listed, same, parse_wraps member listed⟩
  | inferred | separator | statement | part => cases found

/-- A binding that became a part of the invariant in front of it. -/
theorem binding_swallowed :
    let behind := rows ((beforeEnd (tokenize wrappedSource "a.sage")).drop 4)
    behind.map render = ["x > 0", "let y = 1"] ∧ behind.map startsPlain = [false, true] ∧
      (Document.parse wrappedSource "a.sage").body.map expressions = [["x > 0 let y = 1"]] := by
  decide +kernel

end Grammar

end SageNotation
