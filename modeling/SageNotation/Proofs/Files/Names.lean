import SageNotation.Files.Tree
import SageNotation.Proofs.Source.Rows

/-!
Places and their names.

A path that starts at the root stands for a place whose names are whole pieces
(`isPiece_of_mem_resolve`), and the text of such a place is cut into these pieces
again.  Looking it up fails for its length exactly if the place is overlong
(`locate_placeText_eq_tooLong`): as a whole, or by a name in a directory that is
there.
-/

namespace SageNotation

/-- The name of an entry in a directory, as a piece of a path: it is not empty and
leads to no other place than the entry. -/
structure IsPiece (piece : String) : Prop where
  nonempty : piece ≠ ""
  notHere : piece ≠ "."
  notAbove : piece ≠ ".."
  whole : '/' ∉ piece.toList

namespace Path

theorem whole_of_mem_pieces {text piece : String} (member : piece ∈ pieces text) :
    '/' ∉ piece.toList := by
  obtain ⟨letters, listed, rfl⟩ := List.mem_map.mp member
  rw [List.splitOn_eq_splitOnP] at listed
  intro slash
  rw [String.toList_ofList] at slash
  have apart := (SourceText.mem_of_mem_splitOnP slash listed).2
  cases apart

theorem anchorOf_slash (letters : List Char) : anchorOf ('/' :: letters) ≠ .relative := by
  unfold anchorOf
  split <;> simp_all

theorem anchor_ofString_slash (text : String) : (ofString ("/" ++ text)).anchor ≠ .relative := by
  rw [ofString, String.toList_append]
  exact anchorOf_slash text.toList

end Path

namespace FileTree

variable {tree : FileTree} {path : Path} {place front above names : List String} {name : String}

/-! ### The place of a path -/

/-- Where a part of a path leads from a place: double dots lead to the place above. -/
def stepTo (place : List String) (part : String) : List String :=
  if part = ".." then place.dropLast else place ++ [part]

theorem mem_of_mem_stepTo {part : String} (member : name ∈ stepTo place part) :
    name ∈ place ∨ (name = part ∧ name ≠ "..") := by
  unfold stepTo at member
  split at member
  · exact Or.inl (List.dropLast_subset place member)
  · rename_i other
    rcases List.mem_append.mp member with old | new
    · exact Or.inl old
    · have same := List.mem_singleton.mp new
      exact Or.inr ⟨same, same ▸ other⟩

theorem mem_of_mem_foldl_stepTo {parts : List String} (member : name ∈ parts.foldl stepTo place) :
    name ∈ place ∨ (name ∈ parts ∧ name ≠ "..") := by
  induction parts generalizing place with
  | nil => exact Or.inl member
  | cons part others ih =>
      rw [List.foldl_cons] at member
      rcases ih member with here | ⟨later, other⟩
      · rcases mem_of_mem_stepTo here with old | ⟨rfl, other⟩
        · exact Or.inl old
        · exact Or.inr ⟨List.mem_cons_self, other⟩
      · exact Or.inr ⟨List.mem_cons_of_mem part later, other⟩

theorem foldl_stepTo_of_direct {parts : List String} (direct : ".." ∉ parts)
    (place : List String) : parts.foldl stepTo place = place ++ parts := by
  induction parts generalizing place with
  | nil => exact (List.append_nil place).symm
  | cons part others ih =>
      obtain ⟨here, later⟩ := not_or.mp (mt List.mem_cons.mpr direct)
      rw [List.foldl_cons, stepTo, if_neg (Ne.symm here), ih later, List.append_assoc,
        List.singleton_append]

theorem resolve_absolute (absolute : path.anchor ≠ .relative) :
    tree.resolve path = path.parts.foldl stepTo [] := by
  rw [resolve]
  split
  · exact absurd ‹_› absolute
  · rfl

theorem mem_resolve (absolute : path.anchor ≠ .relative) (member : name ∈ tree.resolve path) :
    name ∈ path.parts ∧ name ≠ ".." := by
  rw [resolve_absolute absolute] at member
  rcases mem_of_mem_foldl_stepTo member with none | part
  · cases none
  · exact part

/-- A path from the root that has no double dots stands for its own parts. -/
theorem resolve_of_direct (absolute : path.anchor ≠ .relative) (direct : ".." ∉ path.parts) :
    tree.resolve path = path.parts := by
  rw [resolve_absolute absolute, foldl_stepTo_of_direct direct, List.nil_append]

theorem isPiece_of_mem_resolve {text : String}
    (absolute : (Path.ofString text).anchor ≠ .relative)
    (member : name ∈ tree.resolve (Path.ofString text)) : IsPiece name := by
  obtain ⟨part, notAbove⟩ := mem_resolve absolute member
  obtain ⟨piece, shown⟩ := List.mem_filter.mp part
  rw [Bool.and_eq_true, bne_iff_ne, bne_iff_ne] at shown
  exact ⟨shown.1, shown.2, notAbove, Path.whole_of_mem_pieces piece⟩

/-! ### The text of a place -/

theorem toList_placeText (place : List String) :
    (placeText place).toList = '/' :: ['/'].intercalate (place.map String.toList) := by
  rw [placeText, String.toList_append, String.toList_intercalate]
  rfl

theorem mem_intercalate_iff {character : Char} (other : character ≠ '/') {names : List String} :
    character ∈ (String.intercalate "/" names).toList ↔
      ∃ name ∈ names, character ∈ name.toList := by
  induction names with
  | nil =>
      constructor
      · intro member
        cases member
      · rintro ⟨name, listed, _⟩
        cases listed
  | cons first others ih =>
      simp only [List.mem_cons, exists_eq_or_imp]
      rw [← ih]
      cases others with
      | nil =>
          have none : character ∉ (String.intercalate "/" []).toList := List.not_mem_nil
          rw [String.intercalate_singleton, or_iff_left none]
      | cons second further =>
          have slash : character ∉ "/".toList := mt List.mem_singleton.mp other
          rw [String.intercalate_cons_cons, String.toList_append, String.toList_append,
            List.mem_append, List.mem_append, or_iff_left slash]

theorem mem_placeText_iff {character : Char} (other : character ≠ '/') :
    character ∈ (placeText place).toList ↔ ∃ name ∈ place, character ∈ name.toList := by
  have slash : character ∉ "/".toList := mt List.mem_singleton.mp other
  rw [placeText, String.toList_append, List.mem_append, or_iff_right slash,
    mem_intercalate_iff other]

theorem pieces_placeText (whole : ∀ name ∈ place, '/' ∉ name.toList) (nonempty : place ≠ []) :
    Path.pieces (placeText place) = "" :: place := by
  have apart : ∀ letters ∈ place.map String.toList, '/' ∉ letters := by
    intro letters listed
    obtain ⟨name, member, rfl⟩ := List.mem_map.mp listed
    exact whole name member
  have back : (place.map String.toList).map String.ofList = place := by
    rw [List.map_map]
    exact List.map_id'' (fun name => String.ofList_toList) place
  rw [Path.pieces, toList_placeText, List.splitOn_cons_eq_if_modifyHead,
    if_pos (beq_self_eq_true '/'),
    List.splitOn_intercalate '/' apart (mt List.map_eq_nil_iff.mp nonempty), List.map_cons, back]

theorem ofString_placeText (pieces : ∀ name ∈ place, IsPiece name) (nonempty : place ≠ []) :
    Path.ofString (placeText place) = { anchor := .root, parts := place } := by
  have whole : ∀ name ∈ place, '/' ∉ name.toList := fun name member => (pieces name member).whole
  have kept : ∀ name ∈ place, (name != "" && name != ".") = true := by
    intro name member
    rw [Bool.and_eq_true, bne_iff_ne, bne_iff_ne]
    exact ⟨(pieces name member).nonempty, (pieces name member).notHere⟩
  have parts : (Path.pieces (placeText place)).filter
      (fun piece => piece != "" && piece != ".") = place := by
    rw [pieces_placeText whole nonempty, List.filter_cons_of_neg (by decide)]
    exact List.filter_eq_self.mpr kept
  have anchor : Path.anchorOf (placeText place).toList = .root := by
    obtain ⟨first, others, rfl⟩ := List.exists_cons_of_ne_nil nonempty
    obtain ⟨here, _⟩ := List.forall_mem_cons.mp pieces
    obtain ⟨letter, letters, spelled⟩ :=
      List.exists_cons_of_ne_nil (mt String.toList_eq_nil_iff.mp here.nonempty)
    have apart : letter ≠ '/' := by
      rintro rfl
      exact here.whole (spelled ▸ List.mem_cons_self)
    obtain ⟨behind, shown⟩ : ∃ behind, (placeText (first :: others)).toList =
        '/' :: letter :: behind := by
      cases others with
      | nil =>
          rw [placeText, String.intercalate_singleton, String.toList_append, spelled]
          exact ⟨letters, rfl⟩
      | cons second further =>
          rw [placeText, String.intercalate_cons_cons, String.toList_append,
            String.toList_append, String.toList_append, spelled]
          exact ⟨_, rfl⟩
    rw [shown]
    unfold Path.anchorOf
    split <;> simp_all
  rw [Path.ofString, anchor, parts]

/-- The text of a place leads to the place. -/
theorem resolve_placeText (pieces : ∀ name ∈ place, IsPiece name) :
    tree.resolve (Path.ofString (placeText place)) = place := by
  by_cases root : place = []
  · subst root
    have read : Path.ofString (placeText []) = { anchor := .root, parts := [] } := by decide
    rw [read]
    rfl
  · rw [ofString_placeText pieces root]
    apply resolve_of_direct
    · intro relative
      cases relative
    · intro above
      exact (pieces ".." above).notAbove rfl

theorem utf8ByteSize_placeText_cons (first : String) (nonempty : place ≠ []) :
    (placeText (first :: place)).utf8ByteSize =
      first.utf8ByteSize + 1 + (placeText place).utf8ByteSize := by
  obtain ⟨second, further, rfl⟩ := List.exists_cons_of_ne_nil nonempty
  rw [placeText, String.intercalate_cons_cons, String.append_assoc, String.utf8ByteSize_append,
    String.utf8ByteSize_append]
  change 1 + (first.utf8ByteSize + (placeText (second :: further)).utf8ByteSize) = _
  omega

theorem utf8ByteSize_placeText_le (place : List String) (name : String) :
    (placeText [name]).utf8ByteSize ≤ (placeText (place ++ [name])).utf8ByteSize := by
  induction place with
  | nil => exact Nat.le_refl _
  | cons first others ih =>
      rw [List.cons_append, utf8ByteSize_placeText_cons first (List.concat_ne_nil name others)]
      exact Nat.le_trans ih (Nat.le_add_left _ _)

/-- An entry of a directory above has no longer text than the one of the directory below. -/
theorem utf8ByteSize_placeText_mono (higher : above <+: place) (name : String) :
    (placeText (above ++ [name])).utf8ByteSize ≤ (placeText (place ++ [name])).utf8ByteSize := by
  obtain ⟨below, rfl⟩ := higher
  induction above with
  | nil => exact utf8ByteSize_placeText_le below name
  | cons first others ih =>
      rw [List.cons_append, List.cons_append, List.cons_append,
        utf8ByteSize_placeText_cons first (List.concat_ne_nil name _),
        utf8ByteSize_placeText_cons first (List.concat_ne_nil name _)]
      exact Nat.add_le_add_left ih _

/-! ### Directories on the way -/

theorem isDirectoryAt_of_append (directory : tree.isDirectoryAt (front ++ above) = true) :
    tree.isDirectoryAt front = true := by
  simp only [isDirectoryAt, Bool.or_eq_true, List.any_eq_true, Bool.and_eq_true,
    List.isPrefixOf_iff_prefix, List.isEmpty_iff, List.append_eq_nil_iff] at directory ⊢
  rcases directory with (⟨none, _⟩ | working) | ⟨entry, listed, higher, kind⟩
  · exact Or.inl (Or.inl none)
  · exact Or.inl (Or.inr ((List.prefix_append front above).trans working))
  · refine Or.inr ⟨entry, listed, (List.prefix_append front above).trans higher, ?_⟩
    split at kind
    · rw [decide_eq_true_eq, List.length_append] at kind
      rw [decide_eq_true_eq]
      omega
    · rfl

theorem isDirectoryAt_of_entry (listed : tree.existsAt (front ++ [name]) = true) :
    tree.isDirectoryAt front = true := by
  rw [existsAt, Bool.or_eq_true] at listed
  rcases listed with file | directory
  · obtain ⟨entry, among, found⟩ := List.findSome?_isSome_iff.mp file
    simp only [isDirectoryAt, Bool.or_eq_true, List.any_eq_true, Bool.and_eq_true,
      List.isPrefixOf_iff_prefix]
    split at found
    · rename_i bytes isFile
      have same : entry.1 = front ++ [name] := Option.isSome_ite.mp found
      refine Or.inr ⟨entry, among, same ▸ List.prefix_append front [name], ?_⟩
      rw [isFile, same]
      simp
    · cases found
  · exact isDirectoryAt_of_append directory

/-! ### Lookups that fail for their length -/

/-- A name on the way is too long for the directory it is looked up in, or the text of
the place is too long as a whole. -/
def Overlong (tree : FileTree) (place : List String) : Prop :=
  maxNameSize < (placeText place).utf8ByteSize ∨
    ∃ above name, above ++ [name] <+: place ∧ tree.isDirectoryAt above = true ∧
      maxPieceSize < name.utf8ByteSize

theorem follow_eq_tooLong (pieces : ∀ name ∈ names, IsPiece name) :
    tree.follow front names = .error .tooLong ↔
      ∃ above name, above ++ [name] <+: names ∧ tree.isDirectoryAt (front ++ above) = true ∧
        maxPieceSize < name.utf8ByteSize := by
  induction names generalizing front with
  | nil =>
      rw [follow]
      constructor
      · intro failed
        split at failed <;> cases failed
      · rintro ⟨above, name, higher, _⟩
        have none := List.prefix_nil.mp higher
        exact absurd none (List.concat_ne_nil name above)
  | cons piece others ih =>
      obtain ⟨here, later⟩ := List.forall_mem_cons.mp pieces
      have named : ¬ (piece = "" ∨ piece = ".") := not_or.mpr ⟨here.nonempty, here.notHere⟩
      rw [follow, if_neg named, if_neg here.notAbove]
      by_cases directory : tree.isDirectoryAt front = true
      · rw [if_pos directory]
        by_cases long : maxPieceSize < piece.utf8ByteSize
        · rw [if_pos long]
          refine iff_of_true rfl ⟨[], piece, List.prefix_append [piece] others, ?_, long⟩
          rw [List.append_nil]
          exact directory
        · rw [if_neg long, ih later]
          constructor
          · rintro ⟨above, name, higher, below, tooLong⟩
            refine ⟨piece :: above, name, List.cons_prefix_cons.mpr ⟨rfl, higher⟩, ?_, tooLong⟩
            rw [List.append_cons]
            exact below
          · rintro ⟨above, name, higher, below, tooLong⟩
            cases above with
            | nil =>
                obtain ⟨rfl, _⟩ := List.cons_prefix_cons.mp higher
                exact absurd tooLong long
            | cons first above =>
                obtain ⟨rfl, within⟩ := List.cons_prefix_cons.mp higher
                rw [List.append_cons] at below
                exact ⟨above, name, within, below, tooLong⟩
      · -- No place below is a directory either.
        rw [if_neg directory]
        apply iff_of_false
        · split <;> exact fun failed => by cases failed
        · rintro ⟨above, name, _, below, _⟩
          exact directory (isDirectoryAt_of_append below)

theorem follow_placeText (pieces : ∀ name ∈ place, IsPiece name) :
    tree.follow [] (Path.pieces (placeText place)) = tree.follow [] place := by
  have root : tree.isDirectoryAt [] = true := rfl
  have stays : ∀ others, tree.follow [] ("" :: others) = tree.follow [] others := by
    intro others
    rw [follow, if_pos root, if_pos (Or.inl rfl)]
  cases place with
  | nil =>
      have two : Path.pieces (placeText []) = ["", ""] := by decide
      rw [two, stays, stays]
  | cons first others =>
      have whole : ∀ name ∈ first :: others, '/' ∉ name.toList :=
        fun name member => (pieces name member).whole
      rw [pieces_placeText whole (List.cons_ne_nil first others), stays]

/-- The text of a place that can be part of a name fails to be looked up for its length
exactly if the place is overlong. -/
theorem locate_placeText_eq_tooLong (pieces : ∀ name ∈ place, IsPiece name)
    (usable : '\x00' ∉ (placeText place).toList) :
    tree.locate (placeText place) = .error .tooLong ↔ tree.Overlong place := by
  have shown : (placeText place).isEmpty = false := by
    rw [← Bool.not_eq_true, String.isEmpty_iff, ← String.toList_eq_nil_iff, toList_placeText]
    exact List.cons_ne_nil _ _
  have plain : (placeText place).toList.contains '\x00' = false := by
    rw [← Bool.not_eq_true, List.contains_iff_mem]
    exact usable
  rw [locate, shown, plain]
  simp only [Bool.false_eq_true, if_false]
  by_cases long : maxNameSize < (placeText place).utf8ByteSize
  · rw [if_pos long]
    exact iff_of_true rfl (Or.inl long)
  · rw [if_neg long]
    have start : Path.anchorOf (placeText place).toList ≠ .relative := by
      rw [toList_placeText]
      exact Path.anchorOf_slash _
    split
    · exact absurd ‹_› start
    · rw [follow_placeText pieces, follow_eq_tooLong pieces, Overlong, or_iff_right long]
      rfl

end FileTree

end SageNotation
