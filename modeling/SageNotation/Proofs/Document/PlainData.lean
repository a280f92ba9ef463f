import SageNotation.Proofs.Document.Faithful
import SageNotation.Proofs.Document.Schema

/-!
Plain data keeps what a document holds.

Two values of plain data are alike when they have the same members, in whatever order,
and a truth value is like the number that stands for it.  The data of regular trees are
alike only if the trees agree under the view that goes with the data: every span with
spans, none without (`Tree.alike_toData`).
-/

namespace SageNotation

namespace Data

mutual

/-- Equality of plain data, for which the order of the members of an object does not
count. -/
def Alike : Data → Data → Prop
  | null, null => True
  | bool left, bool right => left = right
  | bool left, int right => left.toInt = right
  | int left, bool right => left = right.toInt
  | int left, int right => left = right
  | text left, text right => left = right
  | list left, list right => ItemsAlike left right
  | object left, object right => left.length = right.length ∧ MembersAlike left right
  | _, _ => False

def ItemsAlike : List Data → List Data → Prop
  | [], [] => True
  | left :: leftOthers, right :: rightOthers => Alike left right ∧ ItemsAlike leftOthers rightOthers
  | _, _ => False

/-- Every member has one of the same key among the others that is like it. -/
def MembersAlike : List (String × Data) → List (String × Data) → Prop
  | [], _ => True
  | (key, value) :: rest, others =>
      (∃ other, others.lookup key = some other ∧ Alike value other) ∧ MembersAlike rest others

end

mutual

def Lacks (key : String) : Data → Prop
  | list items => ItemsLack key items
  | object members => MembersLack key members
  | _ => True

def ItemsLack (key : String) : List Data → Prop
  | [] => True
  | item :: others => Lacks key item ∧ ItemsLack key others

def MembersLack (key : String) : List (String × Data) → Prop
  | [] => True
  | (name, value) :: others => name ≠ key ∧ Lacks key value ∧ MembersLack key others

end

/-- With the same keys in the same order, members are compared one by one. -/
theorem membersAlike_iff {before left right after : List (String × Data)}
    (keys : left.map Prod.fst = right.map Prod.fst)
    (distinct : ((before ++ right).map Prod.fst).Nodup) :
    MembersAlike left (before ++ right ++ after) ↔
      ItemsAlike (left.map Prod.snd) (right.map Prod.snd) := by
  induction left generalizing before right with
  | nil =>
      cases right with
      | nil => exact iff_of_true trivial trivial
      | cons _ _ => simp at keys
  | cons first others ih =>
      obtain ⟨key, value⟩ := first
      cases right with
      | nil => simp at keys
      | cons other rest =>
          obtain ⟨name, found⟩ := other
          obtain ⟨rfl, same⟩ := List.cons.inj keys
          -- the first of the right members has been passed when the others are looked up
          have passed : before ++ (key, found) :: rest = before ++ [(key, found)] ++ rest := by simp
          have there : (before ++ (key, found) :: rest ++ after).lookup key = some found := by
            have fresh : ∀ entry ∈ before, key != entry.1 := by
              intro entry member
              rw [bne_iff_ne]
              rintro rfl
              rw [List.map_append, List.nodup_append] at distinct
              exact distinct.2.2 entry.1 (List.mem_map_of_mem member) entry.1
                (by simp) rfl
            rw [List.append_assoc, List.cons_append]
            exact List.lookup_eq_some_iff.mpr ⟨before, rest ++ after, rfl, fresh⟩
          rw [MembersAlike, there, passed, ih same (by rwa [← passed])]
          simp only [Option.some.injEq, exists_eq_left', List.map_cons, ItemsAlike]

/-- Objects whose keys are the same and distinct are alike if their values are. -/
theorem alike_object_iff {left right : List (String × Data)}
    (keys : left.map Prod.fst = right.map Prod.fst) (distinct : (right.map Prod.fst).Nodup) :
    Alike (object left) (object right) ↔
      ItemsAlike (left.map Prod.snd) (right.map Prod.snd) := by
  have lengths : left.length = right.length := by
    simpa only [List.length_map] using congrArg List.length keys
  have members : MembersAlike left ([] ++ right ++ []) ↔ _ := membersAlike_iff keys distinct
  rw [List.nil_append, List.append_nil] at members
  rw [Alike, members]
  exact and_iff_right lengths

theorem itemsAlike_append {left right leftEnd rightEnd : List Data}
    (lengths : left.length = right.length) :
    ItemsAlike (left ++ leftEnd) (right ++ rightEnd) ↔
      ItemsAlike left right ∧ ItemsAlike leftEnd rightEnd := by
  induction left generalizing right with
  | nil =>
      cases right with
      | nil => simp [ItemsAlike]
      | cons _ _ => simp at lengths
  | cons item others ih =>
      cases right with
      | nil => simp at lengths
      | cons other rest =>
          simp only [List.cons_append, ItemsAlike]
          rw [ih (Nat.succ.inj lengths), and_assoc]

end Data

open Data

theorem Position.alike_toData {left right : Position} :
    Alike left.toData right.toData ↔ left = right := by
  obtain ⟨offset, line, col⟩ := left
  obtain ⟨otherOffset, otherLine, otherCol⟩ := right
  rw [Position.mk.injEq]
  calc Alike (toData ⟨offset, line, col⟩) (toData ⟨otherOffset, otherLine, otherCol⟩)
    _ ↔ line = otherLine ∧ col = otherCol ∧ offset = otherOffset ∧ True :=
        alike_object_iff rfl (by decide : ["line", "col", "offset"].Nodup)
    _ ↔ offset = otherOffset ∧ line = otherLine ∧ col = otherCol := by
        rw [and_true, ← and_assoc, and_comm]

theorem Span.alike_toData {left right : Span} :
    Alike left.toData right.toData ↔ left = right := by
  obtain ⟨file, start, stop⟩ := left
  obtain ⟨otherFile, otherStart, otherStop⟩ := right
  rw [Span.mk.injEq]
  calc Alike (toData ⟨file, start, stop⟩) (toData ⟨otherFile, otherStart, otherStop⟩)
    _ ↔ file = otherFile ∧ Alike start.toData otherStart.toData ∧
          Alike stop.toData otherStop.toData ∧ True :=
        alike_object_iff rfl (by decide : ["file", "start", "end"].Nodup)
    _ ↔ file = otherFile ∧ start = otherStart ∧ stop = otherStop := by
        rw [and_true, Position.alike_toData, Position.alike_toData]

def Span.shown (spans : Bool) : Span → Span :=
  if spans then id else Span.unseen

namespace Tree

variable {spans : Bool}

theorem keys_fieldsToData (spans : Bool) (fields : List (String × Tree)) :
    (fieldsToData spans fields).map Prod.fst = fields.map Prod.fst := by
  induction fields with
  | nil => rfl
  | cons field others ih => rw [fieldsToData, List.map_cons, List.map_cons, ih]

def members (spans : Bool) (label : String) (fields : List (String × Tree)) (span : Span) :
    List (String × Data) :=
  ("kind", .text label) :: fieldsToData spans fields ++
    if spans then [("span", span.toData)] else []

theorem keys_members {label : String} {fields : List (String × Tree)} {span : Span}
    (regular : fields.map Prod.fst = fieldNames label) :
    (members spans label fields span).map Prod.fst =
      "kind" :: fieldNames label ++ if spans then ["span"] else [] := by
  rw [members, List.map_append, List.map_cons, keys_fieldsToData, regular]
  cases spans <;> rfl

theorem nodup_keys (spans : Bool) (label : String) :
    ("kind" :: fieldNames label ++ if spans then ["span"] else []).Nodup := by
  obtain ⟨distinct, kind, span⟩ := fieldNames_sound label
  cases spans with
  | false => simp [distinct, kind]
  | true =>
      have apart : ∀ name ∈ fieldNames label, name ≠ "span" :=
        fun _ member same => span (same ▸ member)
      simpa [List.nodup_append, distinct, kind] using apart

def values (spans : Bool) (fields : List (String × Tree)) : List Data :=
  (fieldsToData spans fields).map Prod.snd

theorem length_values (fields : List (String × Tree)) :
    (values spans fields).length = (fields.map Prod.fst).length := by
  rw [← keys_fieldsToData spans, values, List.length_map, List.length_map]

theorem values_members (label : String) (fields : List (String × Tree)) (span : Span) :
    (members spans label fields span).map Prod.snd =
      .text label :: (values spans fields ++ if spans then [span.toData] else []) := by
  rw [members, List.map_append]
  cases spans <;> rfl

theorem alike_shown {left right : Span} :
    ItemsAlike (if spans then [left.toData] else []) (if spans then [right.toData] else []) ↔
      left.shown spans = right.shown spans := by
  cases spans with
  | false => exact iff_of_true trivial rfl
  | true => exact (and_iff_left trivial).trans Span.alike_toData

theorem alike_members {label other : String} {left right : List (String × Tree)}
    {span stand : Span} (leftNames : left.map Prod.fst = fieldNames label)
    (rightNames : right.map Prod.fst = fieldNames other) :
    Alike (.object (members spans label left span)) (.object (members spans other right stand)) ↔
      label = other ∧ ItemsAlike (values spans left) (values spans right) ∧
        span.shown spans = stand.shown spans := by
  -- the label is the first member to be compared, and determines the keys
  have labels : Alike (.object (members spans label left span))
      (.object (members spans other right stand)) → label = other := by
    rintro ⟨_, ⟨_, found, same⟩, _⟩
    obtain rfl : Data.text other = _ := Option.some.inj found
    exact same
  by_cases same : label = other
  · subst same
    have keys : (members spans label left span).map Prod.fst =
        (members spans label right stand).map Prod.fst :=
      (keys_members leftNames).trans (keys_members rightNames).symm
    have distinct : ((members spans label right stand).map Prod.fst).Nodup := by
      rw [keys_members rightNames]
      exact nodup_keys spans label
    have lengths : (values spans left).length = (values spans right).length := by
      rw [length_values, length_values, leftNames, rightNames]
    rw [alike_object_iff keys distinct, values_members, values_members, ItemsAlike, Alike,
      itemsAlike_append lengths, alike_shown]
  · exact iff_of_false (fun alike => same (labels alike)) (fun agree => same agree.1)

mutual

/-- The data of regular trees are alike if and only if the trees agree in all that the data
shows of them. -/
theorem alike_toData {chosen : Bool} : ∀ {left right : Tree},
    Regular chosen left → Regular chosen right →
    (Alike (left.toData spans) (right.toData spans) ↔
      left.viewed (Span.shown spans) = right.viewed (Span.shown spans))
  | node _ fields _, right, leftRegular, rightRegular => by
      cases right with
      | node _ others _ =>
          rw [toData, toData, ← members, ← members, alike_members leftRegular.1 rightRegular.1]
          simp only [viewed, node.injEq]
          apply and_congr_right
          rintro rfl
          rw [itemsAlike_values (leftRegular.1.trans rightRegular.1.symm) leftRegular.2
            rightRegular.2]
      | list | text | choice | flag | absent => simp [toData, Alike, viewed]
  | list items, right, leftRegular, rightRegular => by
      cases right with
      | list others =>
          rw [toData, toData, Alike, viewed, viewed, list.injEq]
          exact itemsAlike_toData leftRegular rightRegular
      | node | text | choice | flag | absent => simp [toData, Alike, viewed]
  | text _, right, leftRegular, rightRegular => by
      cases right with
      | choice => cases leftRegular.symm.trans rightRegular
      | node | text | list | flag | absent => simp [toData, Alike, viewed]
  | choice _, right, leftRegular, rightRegular => by
      cases right with
      | text => cases leftRegular.symm.trans rightRegular
      | node | choice | list | flag | absent => simp [toData, Alike, viewed]
  | flag _, right, _, _ => by cases right <;> simp [toData, Alike, viewed]
  | absent, right, _, _ => by cases right <;> simp [toData, Alike, viewed]

theorem itemsAlike_toData : ∀ {left right : List Tree},
    ItemsRegular left → ItemsRegular right →
    (ItemsAlike (itemsToData spans left) (itemsToData spans right) ↔
      viewedItems (Span.shown spans) left = viewedItems (Span.shown spans) right)
  | [], right, _, _ => by cases right <;> simp [itemsToData, ItemsAlike, viewedItems]
  | _ :: _, [], _, _ => by simp [itemsToData, ItemsAlike, viewedItems]
  | _ :: _, _ :: _, leftRegular, rightRegular => by
      rw [itemsToData, itemsToData, ItemsAlike, viewedItems, viewedItems, List.cons.injEq,
        alike_toData leftRegular.1 rightRegular.1, itemsAlike_toData leftRegular.2 rightRegular.2]

theorem itemsAlike_values : ∀ {left right : List (String × Tree)},
    left.map Prod.fst = right.map Prod.fst → FieldsRegular left → FieldsRegular right →
    (ItemsAlike (values spans left) (values spans right) ↔
      viewedFields (Span.shown spans) left = viewedFields (Span.shown spans) right)
  | [], [], _, _, _ => iff_of_true trivial rfl
  | [], _ :: _, names, _, _ => nomatch names
  | _ :: _, [], names, _, _ => nomatch names
  | (name, value) :: others, (other, found) :: rest, names, leftRegular, rightRegular => by
      obtain ⟨same, otherNames⟩ := List.cons.inj names
      obtain rfl : name = other := same
      have first : Alike (value.toData spans) (found.toData spans) ↔
          value.viewed (Span.shown spans) = found.viewed (Span.shown spans) :=
        alike_toData leftRegular.1 rightRegular.1
      have later : ItemsAlike (values spans others) (values spans rest) ↔
          viewedFields (Span.shown spans) others = viewedFields (Span.shown spans) rest :=
        itemsAlike_values otherNames leftRegular.2 rightRegular.2
      calc ItemsAlike (value.toData spans :: values spans others)
            (found.toData spans :: values spans rest)
        _ ↔ value.viewed (Span.shown spans) = found.viewed (Span.shown spans) ∧
              viewedFields (Span.shown spans) others = viewedFields (Span.shown spans) rest :=
            and_congr first later
        _ ↔ _ := by simp only [viewedFields, List.cons.injEq, Prod.mk.injEq, true_and]

end

mutual

theorem lacks_toData {chosen : Bool} : ∀ {tree : Tree}, Regular chosen tree →
    (tree.toData false).Lacks "span"
  | node label fields _, regular => by
      have kind : MembersLack "span" (("kind", .text label) :: fieldsToData false fields) := by
        constructor
        · decide
        · constructor
          · trivial
          · apply membersLack_toData regular.2
            rw [regular.1]
            exact (fieldNames_sound label).2.2
      rw [toData, Lacks]
      simpa using kind
  | list _, regular => itemsLack_toData regular
  | text _, _ | choice _, _ | flag _, _ | absent, _ => trivial

theorem itemsLack_toData : ∀ {items : List Tree}, ItemsRegular items →
    ItemsLack "span" (itemsToData false items)
  | [], _ => trivial
  | _ :: _, regular => ⟨lacks_toData regular.1, itemsLack_toData regular.2⟩

theorem membersLack_toData : ∀ {fields : List (String × Tree)}, FieldsRegular fields →
    "span" ∉ fields.map Prod.fst → MembersLack "span" (fieldsToData false fields)
  | [], _, _ => trivial
  | (name, value) :: others, regular, fresh => by
      constructor
      · rintro rfl
        exact fresh List.mem_cons_self
      · constructor
        · exact lacks_toData regular.1
        · apply membersLack_toData regular.2
          exact fun later => fresh (List.mem_cons_of_mem name later)

end

end Tree

namespace Document

theorem toTree_inj {left right : Document} : left.toTree = right.toTree ↔ left = right := by
  obtain ⟨_, _⟩ := left
  obtain ⟨_, _⟩ := right
  simp [toTree, Tree.map_inj Item.toTree_inj]

/-- The data of documents are alike if and only if the documents are the same, or with the
spans left out, the same apart from their places; and then no object has a span. -/
theorem toData_faithful (left right : Document) :
    (Alike (left.toData true) (right.toData true) ↔ left = right) ∧
      (Alike (left.toData false) (right.toData false) ↔ left.unplaced = right.unplaced) ∧
      (left.toData false).Lacks "span" := by
  constructor
  · rw [toData, toData, Tree.alike_toData left.regular_toTree right.regular_toTree, Span.shown,
      if_pos rfl, Tree.viewed_id, Tree.viewed_id, toTree_inj]
  · constructor
    · rw [toData, toData, Tree.alike_toData left.regular_toTree right.regular_toTree,
        ← toTree_inj, toTree_unplaced, toTree_unplaced]
      rfl
    · exact Tree.lacks_toData left.regular_toTree

end Document

end SageNotation
