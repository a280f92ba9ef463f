import Mathlib.Order.Bounds.Basic
import SageNotation.Proofs.Grammar.Wrapping

/-!
Bindings that go on over several lines.

A binding is read from the line of its name and from as many further lines as it
takes to close its braces, unless the input or the construct of the document around
it is over before.  Where it stops is said of the number of lines alone: it is the
least one after which the braces balance or nothing that belongs to it can follow
(`bracedLines_eq`).  The value is the text of these lines, and reading goes on right
behind them (`parse_captures`).
-/

namespace SageNotation

namespace Token

/-- Lines that start in the middle of a line: its rest, and those behind it. -/
theorem rows_line_append {row : List Token} (unbroken : ∀ token ∈ row, token.kind ≠ .newline)
    (more : List Token) : rows (row ++ more) = (rows more).modifyHead (row ++ ·) := by
  induction row with
  | nil => exact (congrFun List.modifyHead_id (rows more)).symm
  | cons first others ih =>
      obtain ⟨here, further⟩ := List.forall_mem_cons.mp unbroken
      have plain : ¬ (first.kind == .newline) = true := fun newline => here (beq_iff_eq.mp newline)
      have step : rows (first :: (others ++ more)) =
          (rows (others ++ more)).modifyHead (List.cons first) := by
        rw [rows, List.splitOnP_cons_eq_if_modifyHead, if_neg plain, rows]
      rw [List.cons_append, step, ih further, List.modifyHead_modifyHead]
      rfl

theorem rows_newline {newline : Token} (kind : newline.kind = .newline) (more : List Token) :
    rows (newline :: more) = [] :: rows more :=
  rows_append (List.forall_mem_nil _) kind more

theorem rows_nil : rows [] = [[]] :=
  List.splitOnP_nil

theorem rows_ne_nil (tokens : List Token) : rows tokens ≠ [] :=
  List.splitOnP_ne_nil _ tokens

end Token

namespace Grammar

open Token

/-! ### Where a binding stops -/

/-- Behind a line end no line of a binding follows: there is nothing but the end of the
input, or the next line opens a construct of the document. -/
def closesOff : List (List Token) → Prop
  | [] => True
  | [] :: others => others = []
  | (first :: _) :: _ => endsBody first.kind = true

/-- With `depth` braces open before these lines, a binding goes on no further than these
many of them. -/
def Halts (depth : Int) (lines : List (List Token)) (count : Nat) : Prop :=
  depth + braceBalance (lines.take count).flatten ≤ 0 ∨ closesOff (lines.drop count)

theorem braceBalance_append (run more : List Token) :
    braceBalance (run ++ more) = braceBalance run + braceBalance more := by
  simp only [braceBalance, List.countP_append]
  omega

theorem braceBalance_uncommented (row : List Token) :
    braceBalance (uncommented row) = braceBalance row := by
  have other : ∀ {kind : Kind}, kind ≠ .comment → ∀ token : Token,
      ((token.kind == kind) && (token.kind != .comment)) = (token.kind == kind) := by
    intro kind different token
    cases same : token.kind == kind with
    | false => rfl
    | true => rw [beq_iff_eq.mp same, bne_iff_ne.mpr different]; rfl
  simp only [braceBalance, uncommented, List.countP_filter, other (show Kind.lbrace ≠ .comment by decide),
    other (show Kind.rbrace ≠ .comment by decide)]

theorem halts_succ {depth : Int} {row : List Token} {lines : List (List Token)} {count : Nat} :
    Halts depth (row :: lines) (count + 1) ↔ Halts (depth + braceBalance row) lines count := by
  rw [Halts, Halts, List.take_succ_cons, List.flatten_cons, braceBalance_append, List.drop_succ_cons,
    Int.add_assoc]

/-- Where braces are open and a line may follow, the next line is taken, and then it is
counted on from there. -/
theorem isLeast_halts_succ {depth : Int} {row : List Token} {lines : List (List Token)}
    {count : Nat} (going : ¬ Halts depth (row :: lines) 0)
    (least : IsLeast {count | Halts (depth + braceBalance row) lines count} count) :
    IsLeast {count | Halts depth (row :: lines) count} (count + 1) := by
  constructor
  · exact halts_succ.mpr least.1
  · intro other halts
    cases other with
    | zero => exact absurd halts going
    | succ fewer => exact Nat.succ_le_succ (least.2 (halts_succ.mp halts))

theorem isLeast_halts_zero {depth : Int} {lines : List (List Token)} (halts : Halts depth lines 0) :
    IsLeast {count | Halts depth lines count} 0 :=
  ⟨halts, fun _ _ => Nat.zero_le _⟩

theorem halts_zero {depth : Int} {lines : List (List Token)} :
    Halts depth lines 0 ↔ depth ≤ 0 ∨ closesOff lines := by
  have none : braceBalance (List.take 0 lines).flatten = 0 := rfl
  rw [Halts, none, Int.add_zero, List.drop_zero]

section Lines

variable {tokens : List Token}

/-- The line behind a newline keeps a binding from going on exactly if its first token
opens a construct. -/
theorem closesOff_first {first : Token} {others row : List Token} {later : List (List Token)}
    (parted : rows (first :: others) = row :: later) :
    closesOff (row :: later) ↔ endsBody first.kind = true := by
  obtain ⟨own, further, same, shape⟩ := rows_cons first others
  cases parted.symm.trans same
  rcases shape with ⟨newline, rfl⟩ | ⟨_, more, rfl⟩
  · rw [rows_newline newline] at parted
    have nonempty : later ≠ [] := by
      rw [← (List.cons.inj parted).2]
      exact rows_ne_nil others
    rw [closesOff, newline]
    exact iff_of_false nonempty Bool.false_ne_true
  · rfl

/-- What stands in front of the first newline behind a line: nothing, or its comment. -/
theorem rows_behind_line {own : List Token} {later : List (List Token)}
    (parted : rows tokens = own :: later) (text : uncommented own = line tokens) :
    ∃ trailing, uncommented trailing = [] ∧ rows (afterLine tokens) = trailing :: later := by
  have unbroken : ∀ token ∈ line tokens, token.kind ≠ .newline :=
    fun token member => (kind_ne_of_mem_line member).1
  have whole := rows_line_append unbroken (afterLine tokens)
  rw [line_append_afterLine, parted] at whole
  obtain ⟨trailing, further, behind⟩ := List.exists_cons_of_ne_nil (rows_ne_nil (afterLine tokens))
  rw [behind, List.modifyHead_cons] at whole
  obtain ⟨rfl, rfl⟩ := List.cons.inj whole
  refine ⟨trailing, ?_, behind⟩
  rw [uncommented, List.filter_append, ← uncommented, ← uncommented, uncommented_line] at text
  exact List.append_right_eq_self.mp text

/-- What the reader of a binding takes behind the first line of a run, and what it leaves. -/
structure Takes (tokens : List Token) (depth : Int) (later : List (List Token)) (count : Nat) :
    Prop where
  least : IsLeast {count | Halts depth later count} count
  value : (bracedLines depth (afterLine tokens)).value = (later.take count).map uncommented
  left : ∃ trailing, uncommented trailing = [] ∧
    rows (bracedLines depth (afterLine tokens)).rest = trailing :: later.drop count

theorem takes_of_closed {depth : Int} {own : List Token} {later : List (List Token)}
    (closed : ¬ 0 < depth) (parted : rows tokens = own :: later)
    (text : uncommented own = line tokens) : Takes tokens depth later 0 := by
  have stays : bracedLines depth (afterLine tokens) = .nothing [] := by
    rw [bracedLines, if_neg closed]
  refine ⟨isLeast_halts_zero (halts_zero.mpr (Or.inl (Int.not_lt.mp closed))), ?_, ?_⟩
  · rw [stays]
    rfl
  · rw [stays]
    exact rows_behind_line parted text

theorem takes_of_closesOff {depth : Int} {later : List (List Token)} (opened : 0 < depth)
    (missing : nextLine? (fun token => !endsBody token.kind) (afterLine tokens) = none)
    (closes : closesOff later) (behind : rows (dropOne .comment (afterLine tokens)) = [] :: later) :
    Takes tokens depth later 0 := by
  have stays : (bracedLines depth (afterLine tokens)).value = [] ∧
      (bracedLines depth (afterLine tokens)).rest = dropOne .comment (afterLine tokens) := by
    rw [bracedLines, if_pos opened, missing]
    exact ⟨rfl, rfl⟩
  refine ⟨isLeast_halts_zero (halts_zero.mpr (Or.inr closes)), stays.1, [], rfl, ?_⟩
  rw [stays.2]
  exact behind

theorem takes_of_line {depth : Int} {row : List Token} {later : List (List Token)} {count : Nat}
    {newline : Taken (dropOne .comment (afterLine tokens))} (opened : 0 < depth)
    (next : nextLine? (fun token => !endsBody token.kind) (afterLine tokens) = some newline)
    (text : uncommented row = line newline.rest) (going : ¬ closesOff (row :: later))
    (takes : Takes newline.rest (depth + braceBalance row) later count) :
    Takes tokens depth (row :: later) (count + 1) := by
  have balance : braceBalance (line newline.rest) = braceBalance row := by
    rw [← text, braceBalance_uncommented]
  have further : (bracedLines depth (afterLine tokens)).value = uncommented row ::
        (bracedLines (depth + braceBalance row) (afterLine newline.rest)).value ∧
      (bracedLines depth (afterLine tokens)).rest =
        (bracedLines (depth + braceBalance row) (afterLine newline.rest)).rest := by
    rw [bracedLines, if_pos opened, next, ← balance, text]
    exact ⟨rfl, rfl⟩
  have open_ : ¬ Halts depth (row :: later) 0 := by
    rw [halts_zero]
    exact not_or.mpr ⟨Int.not_le.mpr opened, going⟩
  refine ⟨isLeast_halts_succ open_ takes.least, ?_, ?_⟩
  · rw [further.1, takes.value, List.take_succ_cons, List.map_cons]
  · rw [further.2, List.drop_succ_cons]
    exact takes.left

/-- The lines that are read after the first one are the least number at which a binding
halts. -/
theorem bracedLines_eq (commentsLast : CommentsLast tokens)
    (unended : ∀ token ∈ tokens, token.kind ≠ .eof) (depth : Int) :
    ∃ own later count, rows tokens = own :: later ∧ uncommented own = line tokens ∧
      Takes tokens depth later count := by
  -- The induction is on the tokens left; a line that is taken is counted in the depth.
  induction length : tokens.length using Nat.strong_induction_on generalizing tokens depth with
  | _ size ih =>
      obtain ⟨own, text, ⟨single, ended⟩ | ⟨newline, more, kind, ahead, parted, behind⟩⟩ :=
        exists_first_row commentsLast unended
      · refine ⟨own, [], 0, single, text, ?_⟩
        by_cases opened : 0 < depth
        · refine takes_of_closesOff opened ?_ trivial (by rw [ended, rows_nil])
          rw [nextLine?]
          split
          · rfl
          · rename_i taken _
            cases ended.symm.trans taken.split
        · exact takes_of_closed opened single text
      · by_cases opened : 0 < depth
        · have left : rows (dropOne .comment (afterLine tokens)) = [] :: rows more := by
            rw [behind, rows_newline kind]
          cases more with
          | nil =>
              refine ⟨own, rows [], 0, parted, text, takes_of_closesOff opened ?_ ?_ left⟩
              · rw [nextLine?, expect_of_split behind kind]
              · rw [rows_nil]
                rfl
          | cons first others =>
              have next : nextLine? (fun token => !endsBody token.kind) (afterLine tokens) =
                  if (!endsBody first.kind) then some ⟨newline, first :: others, behind⟩
                  else none := nextLine?_of_split behind kind
              have inner := (List.suffix_cons newline (first :: others)).trans ahead
              have shorter : (first :: others).length < size := by
                have total := ahead.length_le
                rw [List.length_cons, length] at total
                exact total
              cases stops : endsBody first.kind with
              | true =>
                  rw [stops] at next
                  obtain ⟨row, later, split⟩ :=
                    List.exists_cons_of_ne_nil (rows_ne_nil (first :: others))
                  refine ⟨own, rows (first :: others), 0, parted, text,
                    takes_of_closesOff opened next ?_ left⟩
                  rw [split]
                  exact (closesOff_first split).mpr stops
              | false =>
                  rw [stops] at next
                  obtain ⟨row, later, split⟩ :=
                    List.exists_cons_of_ne_nil (rows_ne_nil (first :: others))
                  obtain ⟨own', later', count, split', line, takes⟩ :=
                    ih _ shorter (commentsLast.suffix inner)
                      (fun token member => unended token (inner.subset member))
                      (depth + braceBalance row) rfl
                  cases split.symm.trans split'
                  refine ⟨own, rows (first :: others), count + 1, parted, text, ?_⟩
                  rw [split]
                  refine takes_of_line opened next line ?_ takes
                  rw [closesOff_first split, stops]
                  exact Bool.false_ne_true
        · exact ⟨own, rows more, 0, parted, text, takes_of_closed opened parted text⟩

end Lines

/-! ### Values -/

def linesText (lines : List (List Token)) : String :=
  joinNonempty "\n" (lines.map fun row => render (uncommented row))

theorem standing_intercalate {texts : List String} (standing : ∀ text ∈ texts, Standing text)
    (nonempty : texts ≠ []) (separator : String) : Standing (String.intercalate separator texts) := by
  induction texts with
  | nil => exact absurd rfl nonempty
  | cons first others ih =>
      obtain ⟨here, later⟩ := List.forall_mem_cons.mp standing
      cases others with
      | nil =>
          rw [String.intercalate_singleton]
          exact here
      | cons second others =>
          rw [String.intercalate_cons_cons]
          exact here.append (ih later (List.cons_ne_nil _ _)) separator

theorem trim_joinNonempty {texts : List String}
    (standing : ∀ text ∈ texts, text = "" ∨ Standing text) (separator : String) :
    Text.trim (joinNonempty separator texts) = joinNonempty separator texts := by
  have kept : ∀ text ∈ texts.filter (!·.isEmpty), Standing text := by
    intro text member
    obtain ⟨within, full⟩ := List.mem_filter.mp member
    rcases standing text within with rfl | stands
    · cases full
    · exact stands
  rw [joinNonempty]
  by_cases nonempty : texts.filter (!·.isEmpty) = []
  · rw [nonempty]
    rfl
  · exact (standing_intercalate kept nonempty separator).trim

theorem trim_linesText {lines : List (List Token)}
    (standing : ∀ row ∈ lines, ∀ token ∈ uncommented row, Standing token.text) :
    Text.trim (linesText lines) = linesText lines := by
  apply trim_joinNonempty
  intro text member
  obtain ⟨row, within, rfl⟩ := List.mem_map.mp member
  by_cases empty : uncommented row = []
  · rw [empty]
    exact Or.inl rfl
  · exact Or.inr (standing_render (standing row within) empty)

/-! ### Bindings of a text -/

/-- The run starts with `let`, a name and an equals sign; two exclamation marks in front of
them make it a decision.  The last list is what stands behind the equals sign. -/
inductive OpensBinding : List Token → Bool → Token → List Token → Prop where
  | plain {word name equals : Token} {behind : List Token} (kind : word.kind = .plain .letWord)
      (named : name.kind = .identifier) (assigns : equals.kind = .assign) :
      OpensBinding (word :: name :: equals :: behind) false name behind
  | marked {mark word name equals : Token} {behind : List Token} (marks : mark.kind = .bang2)
      (kind : word.kind = .plain .letWord) (named : name.kind = .identifier)
      (assigns : equals.kind = .assign) :
      OpensBinding (mark :: word :: name :: equals :: behind) true name behind

/-- So many lines behind the equals sign are captured: up to the first line end at which
the braces among them balance, or none of the further lines can belong to the binding.
The value is their text, and what is left starts at this line end. -/
structure Captures (behind : List Token) (count : Nat) (value : String) (left : List Token) :
    Prop where
  stop : IsLeast {count | 0 < count ∧ Halts 0 (rows behind) count} count
  value : value = linesText ((rows behind).take count)
  left : ∃ trailing, uncommented trailing = [] ∧ rows left = trailing :: (rows behind).drop count

theorem captures_of_takes {behind own : List Token} {later : List (List Token)} {count : Nat}
    (parted : rows behind = own :: later) (text : uncommented own = line behind)
    (takes : Takes behind (braceBalance (line behind)) later count) :
    Captures behind (count + 1)
      (joinNonempty "\n" ((line behind ::
        (bracedLines (braceBalance (line behind)) (afterLine behind)).value).map render))
      (bracedLines (braceBalance (line behind)) (afterLine behind)).rest := by
  have counted : ∀ number, Halts 0 (own :: later) (number + 1) ↔
      Halts (braceBalance (line behind)) later number := by
    intro number
    rw [halts_succ, Int.zero_add, ← braceBalance_uncommented own, text]
  refine ⟨⟨⟨Nat.succ_pos count, ?_⟩, ?_⟩, ?_, ?_⟩
  · rw [parted, counted]
    exact takes.least.1
  · rintro other ⟨positive, halts⟩
    obtain ⟨fewer, rfl⟩ := Nat.exists_eq_add_one.mpr positive
    rw [parted, counted] at halts
    exact Nat.succ_le_succ (takes.least.2 halts)
  · rw [parted, takes.value, ← text, List.take_succ_cons, linesText, ← List.map_cons, List.map_map]
    rfl
  · rw [parted, List.drop_succ_cons]
    exact takes.left

section Texts

variable {source file : String}

/-- Behind a name and an equals sign of a text, a value is read from the lines captured. -/
theorem binding_captures {name equals : Token} {behind : List Token}
    (ahead : equals :: behind <:+ beforeEnd (tokenize source file))
    (named : name.kind = .identifier) (assigns : equals.kind = .assign) (isDecision : Bool) :
    ∃ reading count value, binding isDecision (name :: equals :: behind) = some reading ∧
      (∀ span, reading.value span = .binding ⟨name.value, value, isDecision, span⟩) ∧
      Captures behind count value reading.rest := by
  have inner := (List.suffix_cons equals behind).trans ahead
  obtain ⟨own, later, count, parted, text, takes⟩ :=
    bracedLines_eq ((commentsLast_tokenize source file).suffix inner)
      (fun token member => kind_ne_eof_of_mem_beforeEnd (inner.subset member))
      (braceBalance (line behind))
  have captures := captures_of_takes parted text takes
  have standing : ∀ row ∈ (rows behind).take (count + 1),
      ∀ token ∈ uncommented row, Standing token.text :=
    fun row member => standing_rows ahead (List.mem_of_mem_take member)
  have trimmed := trim_linesText standing
  rw [← captures.value] at trimmed
  rw [← trimmed] at captures
  simp only [binding, expect_of_kind named, expect_of_kind assigns]
  exact ⟨_, count + 1, _, rfl, fun span => rfl, captures⟩

theorem statement_captures {first : Token} {rest : List Token} {isDecision : Bool} {name : Token}
    {behind : List Token} (ahead : first :: rest <:+ beforeEnd (tokenize source file))
    (opens : OpensBinding (first :: rest) isDecision name behind) :
    ∃ count value span, (statement first rest).value.1 =
        .binding ⟨name.value, value, isDecision, span⟩ ∧
      Captures behind count value (statement first rest).rest := by
  have given : ∃ reading count value, statementForm first rest = .read reading ∧
      (∀ span, reading.value span = .binding ⟨name.value, value, isDecision, span⟩) ∧
      Captures behind count value reading.rest := by
    cases opens with
    | plain kind named assigns =>
        have inner := (List.suffix_cons _ _).trans ((List.suffix_cons _ _).trans ahead)
        obtain ⟨reading, count, value, read, made, captures⟩ :=
          binding_captures inner named assigns false
        refine ⟨reading, count, value, ?_, made, captures⟩
        rw [statementForm, kind]
        simp only [read, Attempt.ofOption]
    | marked marks kind named assigns =>
        have inner := (List.suffix_cons _ _).trans
          ((List.suffix_cons _ _).trans ((List.suffix_cons _ _).trans ahead))
        obtain ⟨reading, count, value, read, made, captures⟩ :=
          binding_captures inner named assigns true
        refine ⟨reading.widen (List.suffix_cons _ _), count, value, ?_, made, captures⟩
        rw [statementForm, marks]
        simp only [marked, expect_of_kind kind, read, Option.map_some, Attempt.ofOption]
  obtain ⟨reading, count, value, form, made, captures⟩ := given
  refine ⟨count, value, first.through rest reading.rest, ?_⟩
  rw [statement, form]
  exact ⟨made _, captures⟩

end Texts

/-! ### Where bindings open -/

section Openings

variable {first : Token} {rest tokens : List Token}

theorem split_of_binding {isDecision : Bool} {reading : Reading (Span → Statement) tokens}
    (read : binding isDecision tokens = some reading) :
    ∃ name equals behind, tokens = name :: equals :: behind ∧ name.kind = .identifier ∧
      equals.kind = .assign := by
  unfold binding at read
  split at read
  · cases read
  · rename_i name named
    split at read
    · cases read
    · rename_i equals assigns
      refine ⟨name.token, equals.token, equals.rest, ?_, kind_of_expect named,
        kind_of_expect assigns⟩
      rw [← equals.split]
      exact name.split

theorem opens_of_marked {mark : Token} {reading : Reading (Span → Statement) tokens}
    (marks : mark.kind = .bang2) (read : marked tokens = some reading) {span : Span}
    {node : Binding} (same : reading.value span = .binding node) :
    ∃ name behind, OpensBinding (mark :: tokens) true name behind := by
  unfold marked at read
  split at read
  · rename_i word kind
    obtain ⟨inner, found, _⟩ := Option.map_eq_some_iff.mp read
    obtain ⟨name, equals, behind, split, named, assigns⟩ := split_of_binding found
    have whole := word.split
    rw [split] at whole
    rw [whole]
    exact ⟨name, behind, .marked marks (kind_of_expect kind) named assigns⟩
  · split at read
    · cases read
      cases same
    · cases read
      cases same

theorem opens_of_statement {node : Binding} (same : (statement first rest).value.1 = .binding node) :
    ∃ isDecision name behind, OpensBinding (first :: rest) isDecision name behind := by
  unfold statement at same
  split at same
  · rename_i reading read
    change reading.value _ = .binding node at same
    unfold statementForm at read
    split at read
    · cases read
      unfold proseOrDecision at same
      split at same <;> cases same
    · rename_i marks
      obtain ⟨name, behind, opens⟩ := opens_of_marked marks (Attempt.eq_some_of_ofOption read) same
      exact ⟨true, name, behind, opens⟩
    · rename_i kind
      obtain ⟨name, equals, behind, rfl, named, assigns⟩ :=
        split_of_binding (Attempt.eq_some_of_ofOption read)
      exact ⟨false, name, behind, .plain kind named assigns⟩
    · cases read
      cases same
    · cases read
      cases same
    · cases read
  · cases same
  · cases same

theorem OpensBinding.inside {isDecision : Bool} {name : Token} {behind : List Token}
    (opens : OpensBinding (first :: rest) isDecision name behind) : endsBody first.kind = false := by
  cases opens with
  | plain kind => rw [kind]; rfl
  | marked marks => rw [marks]; rfl

end Openings

/-- The binding is read where one opens, from the lines that are captured there. -/
def BindingAt (first : Token) (rest : List Token) (node : Binding) : Prop :=
  ∃ name behind count, OpensBinding (first :: rest) node.isDecision name behind ∧
    node.name = name.value ∧ (statement first rest).value.1 = .binding node ∧
    Captures behind count node.value (statement first rest).rest

/-- Wherever a binding opens in a text, in a document as in a body, it is read from the
lines up to the one where its braces balance, or to the end of what can belong to it; and
every binding of the document is read in this way. -/
theorem parse_captures (source file : String) :
    (∀ first rest, first :: rest <:+ beforeEnd (tokenize source file) →
      (∃ isDecision name behind, OpensBinding (first :: rest) isDecision name behind) →
        ∃ node, BindingAt first rest node ∧
          (item first rest).value.1 = .statement (.binding node) ∧
          (item first rest).rest = (statement first rest).rest) ∧
      ∀ node, .binding node ∈ (Document.parse source file).body.flatMap Item.statements →
        Stems BindingAt (beforeEnd (tokenize source file)) node := by
  constructor
  · rintro first rest ahead ⟨isDecision, name, behind, opens⟩
    obtain ⟨count, value, span, read, captures⟩ := statement_captures ahead opens
    obtain ⟨same, left⟩ := item_of_statement opens.inside rest
    rw [read] at same
    exact ⟨_, ⟨name, behind, count, opens, rfl, read, captures⟩, same, left⟩
  · intro node member
    obtain ⟨first, rest, ahead, _, read⟩ := stems_of_mem_statements member
    obtain ⟨isDecision, name, behind, opens⟩ := opens_of_statement read
    obtain ⟨count, value, span, made, captures⟩ := statement_captures ahead opens
    cases read.symm.trans made
    exact ⟨first, rest, ahead, name, behind, count, opens, rfl, made, captures⟩

def bracedSource : String :=
  "!!let x = \x7b # \x7d\n\n  a: \"\x7d\"\n\x7d # end\nlet y = \x7b\n  b: 2\n@fn f\nlet z = 3"

theorem parse_captures_of_braces :
    ∃ nodes : List Binding,
      nodes.map (·.value) = ["\x7b\na : \"\x7d\"\n\x7d", "\x7b\nb : 2", "3"] ∧
      (Document.parse bracedSource "a.sage").body.flatMap Item.statements =
        nodes.map Statement.binding ∧
      ∀ node ∈ nodes, Stems BindingAt (beforeEnd (tokenize bracedSource "a.sage")) node := by
  have read : (Document.parse bracedSource "a.sage").body.flatMap Item.statements =
      [⟨"x", "\x7b\na : \"\x7d\"\n\x7d", true, ⟨"a.sage", ⟨0, 1, 1⟩, ⟨27, 4, 2⟩⟩⟩,
        ⟨"y", "\x7b\nb : 2", false, ⟨"a.sage", ⟨34, 5, 1⟩, ⟨50, 6, 7⟩⟩⟩,
        ⟨"z", "3", false, ⟨"a.sage", ⟨57, 8, 1⟩, ⟨66, 8, 10⟩⟩⟩].map Statement.binding := by
    decide +kernel
  refine ⟨_, rfl, read, ?_⟩
  intro node listed
  apply (parse_captures bracedSource "a.sage").2
  rw [read]
  exact List.mem_map_of_mem listed

end Grammar

end SageNotation
