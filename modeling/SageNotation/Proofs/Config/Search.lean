import Mathlib.Data.List.Induction
import SageNotation.Config.Settings
import SageNotation.Proofs.Files.Names

/-!
The search for the settings of a path.

From its base the search goes up one directory at a time until there is a settings
file or the root has been looked at, so it ends with the deepest file at or above
the base (`nearest_cases`).  A path that starts at the root is refused where its
names cannot be looked up; for every other one the search finds that file, and the
standard settings hold exactly if there is none (`searches_absolute`).
-/

namespace SageNotation.Config

variable {tree : FileTree} {path : Path} {base place directory above : List String}

/-! ### Going up -/

structure Offers (tree : FileTree) (base directory : List String) : Prop where
  above : directory <+: base
  listed : tree.existsAt (directory ++ [fileName]) = true

/-- The deepest directory at or above the base that has a settings file. -/
structure IsNearest (tree : FileTree) (base directory : List String) : Prop
    extends Offers tree base directory where
  deepest : ∀ other, Offers tree base other → other.length ≤ directory.length

def HasRoom (place : List String) : Prop :=
  (FileTree.placeText (place ++ [fileName])).utf8ByteSize ≤ FileTree.maxNameSize

theorem HasRoom.of_prefix (room : HasRoom base) (higher : place <+: base) : HasRoom place :=
  Nat.le_trans (FileTree.utf8ByteSize_placeText_mono higher fileName) room

theorem nearest_overlong (long : ¬ HasRoom place) :
    nearest tree place = .error (.nameTooLong (FileTree.placeText (place ++ [fileName]))) := by
  rw [nearest]
  exact if_pos (Nat.lt_of_not_le long)

theorem nearest_listed (room : HasRoom place)
    (listed : tree.existsAt (place ++ [fileName]) = true) :
    nearest tree place = .ok (place ++ [fileName]) := by
  rw [nearest]
  rw [if_neg (Nat.not_lt_of_le room), if_pos listed]

theorem nearest_root (room : HasRoom [])
    (absent : tree.existsAt ([] ++ [fileName]) ≠ true) :
    nearest tree [] = .error .notFound := by
  rw [nearest]
  rw [if_neg (Nat.not_lt_of_le room), if_neg absent]
  exact if_pos rfl

/-- Where there is no settings file the search goes on one directory above. -/
theorem nearest_below {last : String} (room : HasRoom (above ++ [last]))
    (absent : tree.existsAt (above ++ [last] ++ [fileName]) ≠ true) :
    nearest tree (above ++ [last]) = nearest tree above := by
  have inside : ¬ (above ++ [last]).dropLast = above ++ [last] := by
    rw [List.dropLast_concat]
    intro same
    have total := congrArg List.length same
    rw [List.length_append, List.length_singleton] at total
    omega
  rw [nearest]
  rw [if_neg (Nat.not_lt_of_le room), if_neg absent, if_neg inside, List.dropLast_concat]

theorem offers_concat_iff {last : String}
    (absent : tree.existsAt (above ++ [last] ++ [fileName]) ≠ true) :
    Offers tree (above ++ [last]) directory ↔ Offers tree above directory := by
  constructor
  · rintro ⟨higher, listed⟩
    rcases List.prefix_concat_iff.mp higher with rfl | higher
    · exact absurd listed absent
    · exact ⟨higher, listed⟩
  · rintro ⟨higher, listed⟩
    exact ⟨higher.trans (List.prefix_append above [last]), listed⟩

/-- What is nearest to a directory is nearest to an entry of it without settings. -/
theorem IsNearest.concat {last : String} (nearest : IsNearest tree above directory)
    (absent : tree.existsAt (above ++ [last] ++ [fileName]) ≠ true) :
    IsNearest tree (above ++ [last]) directory where
  toOffers := (offers_concat_iff absent).mpr nearest.toOffers
  deepest other offers := nearest.deepest other ((offers_concat_iff absent).mp offers)

theorem isNearest_self (listed : tree.existsAt (place ++ [fileName]) = true) :
    IsNearest tree place place :=
  { above := List.prefix_rfl, listed, deepest := fun _ other => other.above.length_le }

/-- The search ends at the nearest directory with a settings file, or at the root when
there is none. -/
theorem nearest_cases (tree : FileTree) (room : HasRoom base) :
    (∃ directory, IsNearest tree base directory ∧
      nearest tree base = .ok (directory ++ [fileName])) ∨
    ((¬ ∃ directory, Offers tree base directory) ∧ nearest tree base = .error .notFound) := by
  induction base using List.reverseRecOn with
  | nil =>
      by_cases listed : tree.existsAt ([] ++ [fileName]) = true
      · exact Or.inl ⟨[], isNearest_self listed, nearest_listed room listed⟩
      · refine Or.inr ⟨?_, nearest_root room listed⟩
        rintro ⟨directory, higher, there⟩
        rw [List.prefix_nil.mp higher] at there
        exact listed there
  | append_singleton above last ih =>
      by_cases listed : tree.existsAt (above ++ [last] ++ [fileName]) = true
      · exact Or.inl ⟨above ++ [last], isNearest_self listed, nearest_listed room listed⟩
      · rw [nearest_below room listed]
        rcases ih (room.of_prefix (List.prefix_append above [last])) with
          ⟨directory, here, found⟩ | ⟨none, failed⟩
        · exact Or.inl ⟨directory, here.concat listed, found⟩
        · refine Or.inr ⟨?_, failed⟩
          rintro ⟨directory, offers⟩
          exact none ⟨directory, (offers_concat_iff listed).mp offers⟩

/-! ### Paths that can be searched from -/

/-- Where the search of a path starts: the path itself, its double dots resolved, or the
directory of the file it leads to. -/
def baseOf (tree : FileTree) (path : Path) : List String :=
  searchStart tree (tree.resolve path)

theorem baseOf_placeText (pieces : ∀ name ∈ place, IsPiece name)
    (noFile : tree.isFileAt place = false) :
    baseOf tree (.ofString (FileTree.placeText place)) = place := by
  rw [baseOf, FileTree.resolve_placeText pieces, searchStart, noFile]
  rfl

/-- All names that the search looks at are accepted: they hold no zero character and are
not too long. -/
structure Searchable (tree : FileTree) (path : Path) : Prop where
  usable : '\x00' ∉ path.toString.toList
  fits : ¬ tree.Overlong (tree.resolve path)
  room : HasRoom (baseOf tree path)

theorem usable_resolve (absolute : path.anchor ≠ .relative)
    (usable : '\x00' ∉ path.toString.toList) :
    '\x00' ∉ (FileTree.placeText (tree.resolve path)).toList := by
  intro zero
  obtain ⟨name, member, inside⟩ := (FileTree.mem_placeText_iff (by decide)).mp zero
  have part := (FileTree.mem_resolve absolute member).1
  apply usable
  rw [Path.toString, if_neg (fun shown => absurd shown.1 absolute), String.toList_append]
  apply List.mem_append_right
  exact (FileTree.mem_intercalate_iff (by decide)).mpr ⟨name, part, inside⟩

theorem findFrom_unusable (zero : '\x00' ∈ path.toString.toList) :
    findFrom tree path = .error (.unusableName path.toString) := by
  have found : path.toString.toList.contains '\x00' = true := List.contains_iff_mem.mpr zero
  rw [findFrom, placeToSearch, found]
  rfl

/-- Without a zero character, the search starts where the path leads unless a name on
the way there is too long. -/
theorem placeToSearch_cases {text : String}
    (absolute : (Path.ofString text).anchor ≠ .relative)
    (usable : '\x00' ∉ (Path.ofString text).toString.toList) :
    (tree.Overlong (tree.resolve (.ofString text)) ∧
      placeToSearch tree (.ofString text) =
        .error (.nameTooLong (FileTree.placeText (tree.resolve (.ofString text))))) ∨
    (¬ tree.Overlong (tree.resolve (.ofString text)) ∧
      placeToSearch tree (.ofString text) = .ok (tree.resolve (.ofString text))) := by
  have plain : (Path.ofString text).toString.toList.contains '\x00' = false := by
    rw [← Bool.not_eq_true, List.contains_iff_mem]
    exact usable
  have pieces : ∀ name ∈ tree.resolve (.ofString text), IsPiece name :=
    fun _ member => FileTree.isPiece_of_mem_resolve absolute member
  have overlong : tree.locate (FileTree.placeText (tree.resolve (.ofString text))) =
      .error .tooLong ↔ tree.Overlong (tree.resolve (.ofString text)) :=
    FileTree.locate_placeText_eq_tooLong pieces (usable_resolve absolute usable)
  rw [placeToSearch, plain]
  by_cases long : tree.Overlong (tree.resolve (.ofString text))
  · refine Or.inl ⟨long, ?_⟩
    simp only [overlong.mpr long, Bool.false_eq_true, if_false]
  · refine Or.inr ⟨long, ?_⟩
    simp only [Bool.false_eq_true, if_false]
    split
    · exact absurd (overlong.mp ‹_›) long
    · rfl

/-! ### Searches from paths -/

theorem Searchable.findFrom_eq {text : String} (searchable : Searchable tree (.ofString text))
    (absolute : (Path.ofString text).anchor ≠ .relative) :
    findFrom tree (.ofString text) = nearest tree (baseOf tree (.ofString text)) := by
  rcases placeToSearch_cases absolute searchable.usable with ⟨long, _⟩ | ⟨_, started⟩
  · exact absurd long searchable.fits
  · rw [findFrom, started]
    rfl

theorem findFrom_overlong {text : String} (absolute : (Path.ofString text).anchor ≠ .relative)
    (usable : '\x00' ∉ (Path.ofString text).toString.toList)
    (refused : ¬ Searchable tree (.ofString text)) :
    ∃ name, findFrom tree (.ofString text) = .error (.nameTooLong name) := by
  rw [findFrom]
  rcases placeToSearch_cases absolute usable with ⟨_, stopped⟩ | ⟨fits, started⟩
  · rw [stopped]
    exact ⟨_, rfl⟩
  · have long : ¬ HasRoom (baseOf tree (.ofString text)) := fun room =>
      refused ⟨usable, fits, room⟩
    rw [started]
    exact ⟨_, nearest_overlong long⟩

theorem discoverFrom_missing (missing : findFrom tree path = .error .notFound) :
    discoverFrom tree path = .ok (.standard, none) := by
  rw [discoverFrom, missing]

theorem discoverFrom_failed {problem : SettingsError} (other : problem ≠ .notFound)
    (failed : findFrom tree path = .error problem) :
    discoverFrom tree path = .error problem := by
  rw [discoverFrom, failed]
  split
  · cases ‹_ = _›
  · cases ‹_ = _›
    exact absurd rfl other
  · cases ‹_ = _›
    rfl

theorem origin_of_found {file : List String} {settings : Settings} {origin : Option (List String)}
    (found : findFrom tree path = .ok file)
    (discovered : discoverFrom tree path = .ok (settings, origin)) : origin = some file := by
  rw [discoverFrom, found] at discovered
  cases read : Settings.load tree (FileTree.placeText file) with
  | error problem =>
      simp only [read] at discovered
      cases discovered
  | ok held =>
      simp only [read] at discovered
      cases discovered
      rfl

theorem discoverFrom_standard_iff {settings : Settings} :
    discoverFrom tree path = .ok (settings, none) ↔
      settings = .standard ∧ findFrom tree path = .error .notFound := by
  constructor
  · intro discovered
    cases result : findFrom tree path with
    | ok file => cases origin_of_found result discovered
    | error problem =>
        by_cases missing : problem = .notFound
        · rw [missing] at result
          rw [discoverFrom_missing result] at discovered
          cases discovered
          exact ⟨rfl, congrArg Except.error missing⟩
        · rw [discoverFrom_failed missing result] at discovered
          cases discovered
  · rintro ⟨rfl, missing⟩
    exact discoverFrom_missing missing

/-- What a search from a path comes to. -/
structure Searches (tree : FileTree) (path : Path) : Prop where
  /-- Without double dots the path leads to its own parts. -/
  direct : ".." ∉ path.parts → tree.resolve path = path.parts
  found : Searchable tree path → (∃ directory, Offers tree (baseOf tree path) directory) →
    ∃ directory, IsNearest tree (baseOf tree path) directory ∧
      tree.isDirectoryAt directory = true ∧ findFrom tree path = .ok (directory ++ [fileName])
  missing : Searchable tree path → (¬ ∃ directory, Offers tree (baseOf tree path) directory) →
    findFrom tree path = .error .notFound
  unusable : '\x00' ∈ path.toString.toList →
    findFrom tree path = .error (.unusableName path.toString)
  overlong : '\x00' ∉ path.toString.toList → ¬ Searchable tree path →
    ∃ name, findFrom tree path = .error (.nameTooLong name)
  standard : ∀ settings, discoverFrom tree path = .ok (settings, none) ↔
    settings = .standard ∧ findFrom tree path = .error .notFound
  failed : ∀ problem, problem ≠ .notFound → findFrom tree path = .error problem →
    discoverFrom tree path = .error problem

/-- From a path that starts at the root, the search finds the settings file of the
nearest directory at or above its base, or says that there is none; a path with a name
that cannot be looked up is refused. -/
theorem searches_absolute (tree : FileTree) (text : String) :
    Searches tree (Path.ofString ("/" ++ text)) := by
  have absolute := Path.anchor_ofString_slash text
  constructor
  · exact FileTree.resolve_of_direct absolute
  · intro searchable offered
    rcases nearest_cases tree searchable.room with ⟨directory, nearest, reached⟩ | ⟨none, _⟩
    · have directoryThere := FileTree.isDirectoryAt_of_entry nearest.listed
      exact ⟨directory, nearest, directoryThere, (searchable.findFrom_eq absolute).trans reached⟩
    · exact absurd offered none
  · intro searchable none
    rcases nearest_cases tree searchable.room with ⟨directory, nearest, _⟩ | ⟨_, missed⟩
    · exact absurd ⟨directory, nearest.toOffers⟩ none
    · exact (searchable.findFrom_eq absolute).trans missed
  · exact findFrom_unusable
  · exact findFrom_overlong absolute
  · intro settings
    exact discoverFrom_standard_iff
  · intro problem other failed
    exact discoverFrom_failed other failed

theorem findFrom_long_name {name : String} (there : tree.isDirectoryAt directory = true)
    (long : FileTree.maxPieceSize < name.utf8ByteSize)
    (pieces : ∀ piece ∈ directory ++ [name], IsPiece piece)
    (usable : ∀ piece ∈ directory ++ [name], '\x00' ∉ piece.toList) :
    findFrom tree (.ofString (FileTree.placeText (directory ++ [name]))) =
      .error (.nameTooLong (FileTree.placeText (directory ++ [name]))) := by
  have nonempty := List.concat_ne_nil name directory
  have read := FileTree.ofString_placeText pieces nonempty
  have leads : tree.resolve (.ofString (FileTree.placeText (directory ++ [name]))) =
      directory ++ [name] := FileTree.resolve_placeText pieces
  have absolute : (Path.ofString (FileTree.placeText (directory ++ [name]))).anchor ≠
      .relative := by
    rw [read]
    intro relative
    cases relative
  have shown : (Path.ofString (FileTree.placeText (directory ++ [name]))).toString =
      FileTree.placeText (directory ++ [name]) := by
    rw [read, Path.toString, if_neg (fun empty => nonempty empty.2)]
    rfl
  have accepted : '\x00' ∉
      (Path.ofString (FileTree.placeText (directory ++ [name]))).toString.toList := by
    rw [shown, FileTree.mem_placeText_iff (by decide)]
    rintro ⟨piece, member, zero⟩
    exact usable piece member zero
  rcases placeToSearch_cases absolute accepted with ⟨_, stopped⟩ | ⟨fits, _⟩
  · rw [findFrom, stopped, leads]
    rfl
  · rw [leads] at fits
    exact absurd (Or.inr ⟨directory, name, List.prefix_rfl, there, long⟩) fits

def settledTree : FileTree :=
  { entries := [(["w", "sage.toml"], .file ByteArray.empty)]
    workingDirectory := ["w"] }

def nameOf (count : Nat) : String :=
  String.ofList (List.replicate count 'n')

theorem not_mem_nameOf {letter : Char} (other : letter ≠ 'n') (count : Nat) :
    letter ∉ (nameOf count).toList := by
  rw [nameOf, String.toList_ofList]
  exact fun member => other (List.eq_of_mem_replicate member)

theorem isPiece_nameOf {count : Nat} (long : 2 < (nameOf count).utf8ByteSize) :
    IsPiece (nameOf count) := by
  have other : ∀ {text : String}, text.utf8ByteSize ≤ 2 → nameOf count ≠ text := by
    rintro text short rfl
    exact Nat.not_lt_of_le short long
  exact ⟨other (by decide), other (by decide), other (by decide),
    not_mem_nameOf (by decide) count⟩

/-- The settings file of the directory above is not found from an entry with a name that
is too long, nor from one with a zero character in its name. -/
theorem unacceptable_names_refused :
    (IsNearest settledTree
        (baseOf settledTree (.ofString (FileTree.placeText ["w", nameOf 300]))) ["w"] ∧
      findFrom settledTree (.ofString (FileTree.placeText ["w", nameOf 300])) =
        .error (.nameTooLong (FileTree.placeText ["w", nameOf 300]))) ∧
    (IsNearest settledTree (baseOf settledTree (.ofString "/w/\x00")) ["w"] ∧
      findFrom settledTree (.ofString "/w/\x00") = .error (.unusableName "/w/\x00")) := by
  have long : FileTree.maxPieceSize < (nameOf 300).utf8ByteSize := by decide +kernel
  have piece : IsPiece (nameOf 300) := isPiece_nameOf (Nat.lt_trans (by decide) long)
  have pieces : ∀ name ∈ ["w"] ++ [nameOf 300], IsPiece name := by
    rw [List.forall_mem_append, List.forall_mem_singleton, List.forall_mem_singleton]
    exact ⟨⟨by decide, by decide, by decide, by decide⟩, piece⟩
  have usable : ∀ name ∈ ["w"] ++ [nameOf 300], '\x00' ∉ name.toList := by
    rw [List.forall_mem_append, List.forall_mem_singleton, List.forall_mem_singleton]
    exact ⟨by decide, not_mem_nameOf (by decide) 300⟩
  have different : nameOf 300 ≠ "sage.toml" := by
    intro same
    rw [same] at long
    exact absurd long (by decide)
  have absent : settledTree.existsAt (["w"] ++ [nameOf 300] ++ [fileName]) ≠ true := by
    simp [FileTree.existsAt, FileTree.isFileAt, FileTree.fileAt?, FileTree.isDirectoryAt,
      settledTree]
  have noFile : settledTree.isFileAt (["w"] ++ [nameOf 300]) = false := by
    simp [FileTree.isFileAt, FileTree.fileAt?, settledTree, Ne.symm different]
  have self : IsNearest settledTree ["w"] ["w"] := isNearest_self (by decide)
  have nearLong : IsNearest settledTree
      (baseOf settledTree (.ofString (FileTree.placeText (["w"] ++ [nameOf 300])))) ["w"] := by
    rw [baseOf_placeText pieces noFile]
    exact self.concat absent
  have refusedLong := findFrom_long_name
    (by decide : settledTree.isDirectoryAt ["w"] = true) long pieces usable
  have below : baseOf settledTree (.ofString "/w/\x00") = ["w"] ++ ["\x00"] := by decide
  have nearZero : IsNearest settledTree (baseOf settledTree (.ofString "/w/\x00")) ["w"] := by
    rw [below]
    exact self.concat (by decide)
  have shown : (Path.ofString "/w/\x00").toString = "/w/\x00" := by decide
  have refusedZero : findFrom settledTree (.ofString "/w/\x00") =
      .error (.unusableName (Path.ofString "/w/\x00").toString) := findFrom_unusable (by decide)
  rw [shown] at refusedZero
  exact ⟨⟨nearLong, refusedLong⟩, nearZero, refusedZero⟩

end SageNotation.Config
