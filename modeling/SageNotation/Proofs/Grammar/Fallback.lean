import SageNotation.Proofs.Grammar.Bindings

/-!
Lines that are kept as they are.

Whatever a construct has looked at before it was given up, the raw line in its place
goes from its first token to the end of its line, and reading goes on there
(`item_of_raw`, `statement_of_raw`).  Where no line starts with a token that opens
something, the document is the raw lines of its lines (`items_of_unopened`).
-/

namespace SageNotation

open Token

/-- A raw line that keeps a run of tokens: their readable text, and the span from the
start of the first one to the end of the last one. -/
structure RawLine.Keeps (node : RawLine) (run : List Token) : Prop where
  text : node.text = render run
  start : ∃ first ∈ run.head?, node.span.file = first.span.file ∧
    node.span.start = first.span.start
  stop : ∃ last ∈ run.getLast?, node.span.stop = last.span.stop

namespace Grammar

/-! ### Falling back -/

section Falling

variable {first : Token} {rest tokens : List Token} {node : RawLine}

def rawLineOf (first : Token) (rest : List Token) : RawLine :=
  { text := render (first :: line rest)
    span := extent first (line rest) }

theorem between_afterLine (tokens : List Token) : between tokens (afterLine tokens) = line tokens := by
  have divided := between_append (line tokens) (afterLine tokens)
  rw [line_append_afterLine] at divided
  exact divided

theorem rawLine_stamped (first : Token) (rest : List Token) :
    ((rawLine first rest).stamp first).value = .raw (rawLineOf first rest) := by
  have whole : first.through rest (afterLine rest) = extent first (line rest) := by
    rw [through_eq_extent, between_afterLine]
  exact congrArg (fun span => Statement.raw ⟨render (first :: line rest), span⟩) whole

theorem binding_ne_raw {isDecision : Bool} {reading : Reading (Span → Statement) tokens}
    (read : binding isDecision tokens = some reading) (span : Span) :
    reading.value span ≠ .raw node := by
  obtain ⟨name, equals, behind, rfl, named, assigns⟩ := split_of_binding read
  simp only [binding, expect_of_kind named, expect_of_kind assigns] at read
  cases read
  exact Statement.noConfusion

theorem marked_ne_raw {reading : Reading (Span → Statement) tokens}
    (read : marked tokens = some reading) (span : Span) : reading.value span ≠ .raw node := by
  unfold marked at read
  split at read
  · obtain ⟨inner, found, rfl⟩ := Option.map_eq_some_iff.mp read
    exact binding_ne_raw found span
  · split at read
    · cases read
      exact Statement.noConfusion
    · cases read
      exact Statement.noConfusion

theorem statementForm_ne_raw {reading : Reading (Span → Statement) tokens}
    (read : statementForm first tokens = .read reading) (span : Span) :
    reading.value span ≠ .raw node := by
  unfold statementForm at read
  split at read
  · cases read
    unfold proseOrDecision
    split <;> exact Statement.noConfusion
  · exact marked_ne_raw (Attempt.eq_some_of_ofOption read) span
  · exact binding_ne_raw (Attempt.eq_some_of_ofOption read) span
  · cases read
    exact Statement.noConfusion
  · cases read
    exact Statement.noConfusion
  · cases read

theorem itemForm_ne_raw {reading : Reading ((Span → Item) × List Recovery) tokens}
    (read : itemForm first tokens = .read reading) (span : Span) :
    reading.value.1 span ≠ .statement (.raw node) := by
  intro same
  unfold itemForm at read
  split at read
  · rw [declarationForm_eq] at read
    obtain ⟨inner, _, rfl⟩ := Attempt.exists_of_map read
    cases same
  · cases read
    cases same
  · cases read
    cases same
  · obtain ⟨inner, found, rfl⟩ := Attempt.exists_of_map read
    exact statementForm_ne_raw found span (Item.statement.inj same)

/-- A raw line in a body is the line of its first token, and reading goes on behind it. -/
theorem statement_of_raw (same : (statement first rest).value.1 = .raw node) :
    node = rawLineOf first rest ∧ (statement first rest).rest = afterLine rest := by
  have stamped := rawLine_stamped first rest
  cases form : statementForm first rest with
  | read reading =>
      rw [statement, form] at same
      exact absurd same (statementForm_ne_raw form _)
  | unknown | refused =>
      rw [statement, form] at same ⊢
      exact ⟨(Statement.raw.inj (stamped.symm.trans same)).symm, rfl⟩

theorem item_of_raw (same : (item first rest).value.1 = .statement (.raw node)) :
    node = rawLineOf first rest ∧ (item first rest).rest = afterLine rest := by
  have stamped := rawLine_stamped first rest
  cases form : itemForm first rest with
  | read reading =>
      rw [item, form] at same
      exact absurd same (itemForm_ne_raw form _)
  | unknown | refused =>
      rw [item, form] at same ⊢
      have inner : ((rawLine first rest).stamp first).value = .raw node := Item.statement.inj same
      exact ⟨(Statement.raw.inj (stamped.symm.trans inner)).symm, rfl⟩

end Falling

/-! ### The line that is kept -/

/-- A raw line of a text keeps one run of significant tokens, from its first token up to
where a newline, a comment or the end mark follows.  It covers them and no other token. -/
structure KeepsLine (tokens : List Token) (node : RawLine) (front run back : List Token) :
    Prop where
  whole : tokens = front ++ (run ++ back)
  keeps : node.Keeps run
  spoken : ∀ token ∈ run, token.isSignificant = true
  ended : ∃ next ∈ back.head?, next.kind = .newline ∨ next.kind = .comment ∨ next.kind = .eof
  before : ∀ token ∈ front, token.span.Precedes node.span
  inside : ∀ token ∈ run, token.span.Inside node.span
  behind : ∀ token ∈ back, node.span.Precedes token.span

section Kept

variable {file : String} {low high : Int} {first : Token} {rest run tokens : List Token}

theorem stop_extent (laid : Laid file low high (first :: run))
    (spoken : ∀ token ∈ first :: run, token.isSignificant = true) :
    ∃ last ∈ (first :: run).getLast?, (extent first run).stop = last.span.stop := by
  have all : lastSignificant? run = run.getLast? := by
    rw [lastSignificant?,
      List.filter_eq_self.mpr fun token member => spoken token (List.mem_cons_of_mem first member)]
  cases known : run.getLast? with
  | none =>
      rw [List.getLast?_eq_none_iff.mp known, extent_nil]
      exact ⟨first, rfl, rfl⟩
  | some last =>
      have member := List.mem_of_getLast? known
      obtain ⟨middle, _, here, behind⟩ := laid
      have front := (here (isTrivia_of_isSignificant (spoken first List.mem_cons_self))).2
      have back := (behind.stands_of_mem (widens_stands file) member (isTrivia_of_isSignificant
        (spoken last (List.mem_cons_of_mem first member)))).2
      have later : first.span.stop.offset < last.span.stop.offset :=
        Int.lt_of_le_of_lt (Span.precedes_of_between front back) back.nonempty
      refine ⟨last, by rw [List.getLast?_cons, known]; rfl, ?_⟩
      rw [extent, all, known]
      exact Position.later_of_offset_lt later

theorem spoken_line (laid : Laid file low high (first :: line rest))
    (plain : first.isTrivia = false) : ∀ token ∈ first :: line rest, token.isSignificant = true := by
  intro token member
  apply laid.isSignificant_of_mem member
  rcases List.mem_cons.mp member with rfl | later
  · exact plain
  · exact isTrivia_of_mem_line later

theorem keeps_rawLineOf (laid : Laid file low high (first :: line rest))
    (plain : first.isTrivia = false) : (rawLineOf first rest).Keeps (first :: line rest) :=
  ⟨rfl, ⟨first, rfl, rfl, rfl⟩, stop_extent laid (spoken_line laid plain)⟩

theorem laid_line (laid : Laid file low high (first :: rest)) :
    ∃ middle, Laid file low middle (first :: line rest) ∧ Laid file middle high (afterLine rest) := by
  rw [← line_append_afterLine rest, ← List.cons_append] at laid
  exact laid.split

end Kept

section Texts

variable {source file : String} {first : Token} {rest : List Token}

theorem keepsLine_rawLineOf (ahead : first :: rest <:+ beforeEnd (tokenize source file))
    (plain : first.isTrivia = false) :
    ∃ front run back, KeepsLine (tokenize source file) (rawLineOf first rest) front run back := by
  obtain ⟨front, whole⟩ := ahead
  have tokens := laid_tokenize source file
  rw [← whole] at tokens
  obtain ⟨_, _, further⟩ := tokens.split
  obtain ⟨_, laid, _⟩ := laid_line further
  have spoken := spoken_line laid plain
  have keeps := keeps_rawLineOf laid plain
  have unended : ∀ token ∈ rest, token.kind ≠ .eof := by
    intro token member
    apply kind_ne_eof_of_mem_beforeEnd
    rw [← whole]
    exact List.mem_append_right front (List.mem_cons_of_mem first member)
  have parted : tokenize source file = front ++ ((first :: line rest) ++
      (afterLine rest ++ [endMark file (Position.first.after source.toList)])) := by
    rw [tokenize_eq, ← whole, List.append_assoc, List.cons_append, List.cons_append,
      ← List.append_assoc (line rest), line_append_afterLine]
  have ordered := (tokenize_partitions source file).ordered
  rw [parted, List.pairwise_append, List.pairwise_append] at ordered
  obtain ⟨_, ⟨_, _, later⟩, earlier⟩ := ordered
  refine ⟨front, first :: line rest, afterLine rest ++ [_], parted, keeps, spoken, ?_, ?_,
    fun token member => (extent_covers plain laid).2 token member (spoken token member), ?_⟩
  · cases behind : afterLine rest with
    | nil => exact ⟨_, rfl, Or.inr (Or.inr rfl)⟩
    | cons next others =>
        have ends := kind_of_afterLine unended behind
        exact ⟨next, rfl, ends.imp id Or.inl⟩
  · exact fun token member => earlier token member first List.mem_cons_self
  · obtain ⟨last, known, stop⟩ := keeps.stop
    intro token member
    rw [Span.Precedes, stop]
    exact later last (List.mem_of_getLast? known) token member

end Texts

/-! ### Texts in which nothing opens -/

/-- The kinds of token with which something other than a raw line may start. -/
def opensItem : Kind → Bool
  | .declare _ | .inferred _ | .dash3 | .string | .bang2 => true
  | .plain .letWord | .plain .ifWord | .plain .ret => true
  | _ => false

/-- The item is a raw line that keeps these tokens. -/
def KeptAs (row : List Token) (item : Item) : Prop :=
  ∃ node : RawLine, item = .statement (.raw node) ∧ node.Keeps row

/-- The lines of a run without their comments, those that are left blank passed over. -/
def spokenRows (tokens : List Token) : List (List Token) :=
  ((rows tokens).map uncommented).filter (!·.isEmpty)

section Unopened

variable {file : String} {low high : Int} {first : Token} {rest tokens : List Token}

theorem itemForm_of_unopened (unopened : opensItem first.kind = false) (rest : List Token) :
    itemForm first rest = .unknown := by
  have none : statementForm first rest = .unknown := by
    unfold statementForm
    split
    case h_6 => rfl
    all_goals
      rename_i kind
      rw [kind] at unopened
      cases unopened
  unfold itemForm
  split <;> rename_i kind
  · rw [kind] at unopened
    cases unopened
  · rw [kind] at unopened
    cases unopened
  · rw [kind] at unopened
    cases unopened
  · rw [none]
    rfl

theorem item_of_unopened (unopened : opensItem first.kind = false) (rest : List Token) :
    (item first rest).value.1 = .statement (.raw (rawLineOf first rest)) ∧
      (item first rest).rest = afterLine rest := by
  rw [item, itemForm_of_unopened unopened]
  exact ⟨congrArg Item.statement (rawLine_stamped first rest), rfl⟩

theorem spokenRows_trivia (trivia : first.isTrivia = true) (rest : List Token) :
    spokenRows (first :: rest) = spokenRows rest := by
  rcases kind_of_isTrivia trivia with newline | comment
  · rw [spokenRows, rows_newline newline]
    rfl
  · have unbroken : ∀ token ∈ [first], token.kind ≠ .newline := by
      intro token member
      rw [List.mem_singleton.mp member, comment]
      decide
    have silent : ∀ row, uncommented ([first] ++ row) = uncommented row := by
      intro row
      rw [uncommented, List.filter_append, List.filter_cons_of_neg]
      · rfl
      · rw [comment]
        decide
    obtain ⟨own, later, parted⟩ := List.exists_cons_of_ne_nil (rows_ne_nil rest)
    have joined := rows_line_append unbroken rest
    rw [parted, List.modifyHead_cons] at joined
    rw [spokenRows, spokenRows, ← List.singleton_append, joined, parted, List.map_cons, silent,
      ← List.map_cons]

theorem spokenRows_line (commentsLast : CommentsLast (first :: rest))
    (unended : ∀ token ∈ first :: rest, token.kind ≠ .eof) (plain : first.isTrivia = false) :
    spokenRows (first :: rest) = (first :: line rest) :: spokenRows (afterLine rest) := by
  have going : (!first.endsLine) = true := by
    rw [endsLine_of_unmarked (unended first List.mem_cons_self), plain]
    rfl
  have own : line (first :: rest) = first :: line rest := List.takeWhile_cons_of_pos going
  have left : afterLine (first :: rest) = afterLine rest := List.dropWhile_cons_of_pos going
  obtain ⟨row, text, given⟩ := exists_first_row commentsLast unended
  obtain ⟨later, parted⟩ : ∃ later, rows (first :: rest) = row :: later := by
    rcases given with ⟨single, _⟩ | ⟨_, more, _, _, parted, _⟩
    · exact ⟨[], single⟩
    · exact ⟨rows more, parted⟩
  obtain ⟨trailing, silent, behind⟩ := rows_behind_line parted text
  rw [own] at text
  rw [left] at behind
  rw [spokenRows, spokenRows, parted, behind, List.map_cons, List.map_cons, text, silent]
  rfl

/-- Where no line starts with a token that opens something, each line that holds more than
a comment is kept as a raw line, and there is nothing else in the document. -/
theorem items_of_unopened (laid : Laid file low high tokens) (commentsLast : CommentsLast tokens)
    (unended : ∀ token ∈ tokens, token.kind ≠ .eof)
    (unopened : ∀ row ∈ spokenRows tokens, ∀ first ∈ row.head?, opensItem first.kind = false) :
    List.Forall₂ KeptAs (spokenRows tokens) (items tokens).value.1 := by
  induction tokens using items.induct generalizing low with
  | case1 =>
      rw [items]
      exact .nil
  | case2 first rest trivia ih =>
      rw [spokenRows_trivia trivia] at unopened ⊢
      rw [items_trivia trivia]
      exact ih laid.tail (commentsLast.suffix (List.suffix_cons _ _))
        (fun token member => unended token (List.mem_cons_of_mem first member)) unopened
  | case3 first rest plain ends => exact False.elim (unended first List.mem_cons_self ends)
  | case4 first rest plain unmarked one ih =>
      have silent := eq_false_of_ne_true plain
      have ahead := suffix_cons_of_suffix first (afterLine_suffix rest)
      rw [spokenRows_line commentsLast unended silent] at unopened ⊢
      have here := unopened (first :: line rest) List.mem_cons_self first rfl
      obtain ⟨kept, left⟩ : _ ∧ one.rest = afterLine rest := item_of_unopened here rest
      obtain ⟨middle, front, back⟩ := laid_line laid
      rw [(items_plain plain unmarked rest).1]
      refine .cons ⟨rawLineOf first rest, kept, keeps_rawLineOf front silent⟩ ?_
      rw [left] at ih ⊢
      exact ih back (commentsLast.suffix ahead) (fun token member => unended token (ahead.subset member))
        fun row member => unopened row (List.mem_cons_of_mem _ member)

end Unopened

/-- A raw line of a text keeps its own line and nothing else, wherever it stands, and
reading goes on behind this line.  If no line of the text starts with a token that opens
something, the document is a raw line for each line that holds more than a comment. -/
theorem parse_falls_back (source file : String) :
    (∀ node, .raw node ∈ (Document.parse source file).body.flatMap Item.statements →
      ∃ front run back, KeepsLine (tokenize source file) node front run back) ∧
    (∀ first rest node,
      ((item first rest).value.1 = .statement (.raw node) →
        (item first rest).rest = afterLine rest) ∧
      ((statement first rest).value.1 = .raw node →
        (statement first rest).rest = afterLine rest)) ∧
    ((∀ row ∈ spokenRows (beforeEnd (tokenize source file)), ∀ first ∈ row.head?,
        opensItem first.kind = false) →
      List.Forall₂ KeptAs (spokenRows (beforeEnd (tokenize source file)))
        (Document.parse source file).body) := by
  refine ⟨?_, ?_, ?_⟩
  · intro node member
    obtain ⟨first, rest, ahead, plain, read⟩ := stems_of_mem_statements member
    rw [(statement_of_raw read).1]
    exact keepsLine_rawLineOf ahead plain
  · exact fun first rest node =>
      ⟨fun same => (item_of_raw same).2, fun same => (statement_of_raw same).2⟩
  · rw [body_parse]
    exact items_of_unopened (laid_tokenize source file) (commentsLast_tokenize source file)
      fun token member => kind_ne_eof_of_mem_beforeEnd member

def brokenSource : String := "@type T = \x7b\n a: b\n c d\n\x7d"

def unopenedSource : String := "x y # @fn f\n\n= 3\n  @req p\nelse z"

theorem parse_falls_back_of_broken :
    (∃ node front run back, node.text = "@type T = \x7b" ∧
      .raw node ∈ (Document.parse brokenSource "a.sage").body.flatMap Item.statements ∧
      KeepsLine (tokenize brokenSource "a.sage") node front run back) ∧
    (∀ row ∈ spokenRows (beforeEnd (tokenize unopenedSource "a.sage")), ∀ first ∈ row.head?,
      opensItem first.kind = false) ∧
    (spokenRows (beforeEnd (tokenize unopenedSource "a.sage"))).map render =
      ["x y", "= 3", "@req p", "else z"] ∧
    List.Forall₂ KeptAs (spokenRows (beforeEnd (tokenize unopenedSource "a.sage")))
      (Document.parse unopenedSource "a.sage").body := by
  have given : .raw ⟨"@type T = \x7b", ⟨"a.sage", ⟨0, 1, 1⟩, ⟨11, 1, 12⟩⟩⟩ ∈
      (Document.parse brokenSource "a.sage").body.flatMap Item.statements := by
    decide +kernel
  have unopened : ∀ row ∈ spokenRows (beforeEnd (tokenize unopenedSource "a.sage")),
      ∀ first ∈ row.head?, opensItem first.kind = false := by
    decide +kernel
  obtain ⟨front, run, back, keeps⟩ := (parse_falls_back brokenSource "a.sage").1 _ given
  refine ⟨⟨_, front, run, back, rfl, given, keeps⟩, unopened, ?_,
    (parse_falls_back unopenedSource "a.sage").2.2 unopened⟩
  decide +kernel

end Grammar

end SageNotation
