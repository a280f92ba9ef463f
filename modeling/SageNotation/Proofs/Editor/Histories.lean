import SageNotation.Editor.Session

/-!
What a session knows after any history of events.

One event decides about the text of its own name and leaves the others as they are
(`find?_handle`), so after a history only the last event of each name counts
(`find?_run`).  The answers look at nothing but what is found under the name they
are asked about, whatever the checker is, failures included.
-/

namespace SageNotation.Editor

namespace Event

def uri : Event → String
  | opened uri _ | changed uri _ | closed uri => uri

def text? : Event → Option String
  | opened _ text => some text
  | changed _ texts => some (texts.getLastD "")
  | closed _ => none

def last? (events : List Event) (uri : String) : Option Event :=
  (events.filter (·.uri == uri)).getLast?

/-- The text that a history leaves open under a name. -/
def latest? (events : List Event) (uri : String) : Option String :=
  (last? events uri).bind text?

end Event

namespace Session

def run (session : Session) : List Event → Session × List Publication
  | [] => (session, [])
  | event :: others =>
      let handled := session.handle event
      let later := handled.1.run others
      (later.1, handled.2 :: later.2)

/-! ### One event -/

theorem lookup_filter (texts : List (String × Analysis)) (removed uri : String) :
    (texts.filter (·.1 != removed)).lookup uri =
      if removed = uri then none else texts.lookup uri := by
  induction texts with
  | nil => exact (ite_self none).symm
  | cons entry others ih =>
      rw [List.filter_cons, List.lookup_cons]
      by_cases here : entry.1 = removed
      · rw [if_neg (by simpa using here), ih]
        by_cases same : removed = uri
        · rw [if_pos same, if_pos same]
        · rw [if_neg same, if_neg same, beq_false_of_ne fun found => same (here.symm.trans found.symm)]
      · rw [if_pos (bne_iff_ne.mpr here), List.lookup_cons, ih]
        by_cases found : uri = entry.1
        · have apart : removed ≠ uri := fun same => here (found.symm.trans same.symm)
          rw [if_neg apart, if_neg apart, beq_iff_eq.mpr found]
        · rw [beq_false_of_ne found]

@[simp] theorem checker_handle (session : Session) (event : Event) :
    (session.handle event).1.checker = session.checker := by
  cases event <;> rfl

theorem find?_put (session : Session) (uri : String) (analysis : Analysis) (other : String) :
    (session.put uri analysis).find? other =
      if uri = other then some analysis else session.find? other := by
  rw [put, find?, List.lookup_cons]
  by_cases same : uri = other
  · rw [if_pos same, beq_iff_eq.mpr same.symm]
  · rw [if_neg same, beq_false_of_ne (Ne.symm same)]
    exact (lookup_filter session.texts uri other).trans (if_neg same)

/-- An event settles its own name and leaves every other name as it is. -/
theorem find?_handle (session : Session) (event : Event) (uri : String) :
    (session.handle event).1.find? uri =
      if event.uri = uri then
        event.text?.map fun text => session.checker.analyze uri (some text)
      else session.find? uri := by
  cases event with
  | opened name text | changed name texts =>
      refine (find?_put session name _ uri).trans ?_
      by_cases same : name = uri
      · rw [if_pos same, same]
        exact (if_pos rfl).symm
      · exact (if_neg same).trans (if_neg same).symm
  | closed name => exact lookup_filter session.texts name uri

/-- An event that leaves a text open publishes what a fresh analysis of it finds. -/
theorem publication_handle (session : Session) (event : Event) :
    (session.handle event).2 =
      event.text?.map fun text =>
        (event.uri, (session.checker.analyze event.uri (some text)).notices) := by
  cases event <;> rfl

/-! ### Histories -/

theorem last?_cons (event : Event) (others : List Event) (uri : String) :
    Event.last? (event :: others) uri =
      (Event.last? others uri).or (if event.uri = uri then some event else none) := by
  rw [Event.last?, Event.last?, List.filter_cons]
  by_cases same : event.uri = uri
  · rw [if_pos (beq_iff_eq.mpr same), if_pos same, List.getLast?_cons]
    cases (others.filter (·.uri == uri)).getLast? <;> rfl
  · rw [if_neg (by simpa using same), if_neg same, Option.or_none]

/-- Of all events only the last one about a name counts. -/
theorem find?_run (session : Session) (events : List Event) (uri : String) :
    (session.run events).1.find? uri =
      match Event.last? events uri with
      | some event => event.text?.map fun text => session.checker.analyze uri (some text)
      | none => session.find? uri := by
  induction events generalizing session with
  | nil => rfl
  | cons event others ih =>
      rw [last?_cons]
      refine (ih _).trans ?_
      rw [checker_handle]
      cases Event.last? others uri with
      | some later => rfl
      | none =>
          rw [find?_handle, Option.none_or]
          by_cases same : event.uri = uri
          · rw [if_pos same, if_pos same]
          · rw [if_neg same, if_neg same]

theorem publications_run (session : Session) (events : List Event) :
    (session.run events).2 =
      events.map fun event => event.text?.map fun text =>
        (event.uri, (session.checker.analyze event.uri (some text)).notices) := by
  induction events generalizing session with
  | nil => rfl
  | cons event others ih =>
      have later := ih (session.handle event).1
      rw [checker_handle] at later
      rw [List.map_cons, ← later, ← publication_handle]
      rfl

theorem find?_run_start (checker : Checker) (events : List Event) (uri : String) :
    ((start checker).run events).1.find? uri =
      (Event.latest? events uri).map fun text => checker.analyze uri (some text) := by
  rw [find?_run, Event.latest?]
  cases Event.last? events uri with
  | some event => rfl
  | none => rfl

/-! ### Answers -/

/-- Two sessions answer every question about a text alike. -/
structure SameAnswers (left right : Session) (uri : String) : Prop where
  hover : ∀ place, left.hover uri place = right.hover uri place
  hoverWord : ∀ word, left.hoverWord uri word = right.hoverWord uri word
  definition : ∀ place, left.definition uri place = right.definition uri place
  completion : left.completion uri = right.completion uri
  symbols : left.symbols uri = right.symbols uri

theorem sameAnswers_of_find? {left right : Session} {uri : String}
    (same : left.find? uri = right.find? uri) : SameAnswers left right uri where
  hover place := by rw [hover, hover, wordAt?, wordAt?, same]
  hoverWord word := by rw [hoverWord, hoverWord, same]
  definition place := by rw [definition, definition, wordAt?, wordAt?, same]
  completion := by rw [completion, completion, same]
  symbols := by rw [symbols, symbols, same]

theorem latest?_isSome (events : List Event) (uri : String) :
    (Event.latest? events uri).isSome = true ↔
      ∃ event, Event.last? events uri = some event ∧ ∀ name, event ≠ .closed name := by
  rw [Event.latest?]
  cases Event.last? events uri with
  | none => exact iff_of_false Bool.false_ne_true fun ⟨_, absent, _⟩ => nomatch absent
  | some event =>
      simp only [Option.bind_some, Option.some.injEq, exists_eq_left']
      cases event with
      | opened name text | changed name texts => exact iff_of_true rfl fun _ same => nomatch same
      | closed name => exact iff_of_false Bool.false_ne_true fun other => other name rfl

/-- A session that is told of one text, or of none, finds that one. -/
theorem find?_run_latest (checker : Checker) (text? : Option String) (uri : String) :
    ((start checker).run (text?.toList.map (.opened uri))).1.find? uri =
      text?.map fun text => checker.analyze uri (some text) := by
  cases text? with
  | none => rfl
  | some text => exact (find?_handle (start checker) (.opened uri text) uri).trans (if_pos rfl)

/-- After any history a text is open when its last event is not its closing.  What is
known about it, and what is published, is what a fresh analysis of its latest text
gives, and a session that is told of this text alone gives the same answers. -/
theorem run_latest (checker : Checker) (events : List Event) (uri : String) :
    ((((start checker).run events).1.find? uri).isSome = true ↔
      ∃ event, Event.last? events uri = some event ∧ ∀ name, event ≠ .closed name) ∧
    ((start checker).run events).1.find? uri =
      (Event.latest? events uri).map (fun text => checker.analyze uri (some text)) ∧
    ((start checker).run events).2 =
      events.map (fun event => event.text?.map fun text =>
        (event.uri, (checker.analyze event.uri (some text)).notices)) ∧
    SameAnswers ((start checker).run events).1
      ((start checker).run ((Event.latest? events uri).toList.map (.opened uri))).1 uri := by
  have found := find?_run_start checker events uri
  refine ⟨?_, found, publications_run (start checker) events, ?_⟩
  · rw [found, Option.isSome_map]
    exact latest?_isSome events uri
  · exact sameAnswers_of_find? (found.trans (find?_run_latest checker _ uri).symm)

end Session

end SageNotation.Editor
