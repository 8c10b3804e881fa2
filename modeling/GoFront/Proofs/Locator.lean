import GoFront.Locator
import GoFront.Proofs.Storage

/-!
What a search for a package finds. It refuses names that do not spell out a way down; otherwise the
first root with the directory decides, and its source files come in the order of their names, all of
them directly in that directory and so below the root.
-/
namespace GoFront.Locator

open GoFront.Path (join isRooted properParts IsElement IsName)

variable {locator : Locator} {entries? : String → Option (Except FileError (List Entry))}
  {package extension root directory name : String} {entries : List Entry} {entry : Entry}

/-! ### Package names -/

/-- The name is empty, starts at the root, or has an element that does not lead down. -/
def Refused (package : String) : Prop :=
  package = "" ∨ package.toList.head? = some '/' ∨
    ∃ part ∈ package.toList.splitOn '/', part = [] ∨ part = ['.'] ∨ part = ['.', '.']

instance (package : String) : Decidable (Refused package) :=
  inferInstanceAs (Decidable (package = "" ∨ package.toList.head? = some '/' ∨
    ∃ part ∈ package.toList.splitOn '/', part = [] ∨ part = ['.'] ∨ part = ['.', '.']))

theorem isRooted_iff {name : List Char} : isRooted name = true ↔ name.head? = some '/' := by
  cases name with
  | nil => simp [isRooted]
  | cons c rest => simp [Path.isRooted_cons]

theorem checkName_of_refused (refused : Refused package) :
    ∃ reason, checkName package = .error (.invalidName package reason) := by
  unfold checkName
  dsimp only
  split
  next => exact ⟨_, rfl⟩
  next some =>
    split
    next => exact ⟨_, rfl⟩
    next unrooted =>
      have parts := (refused.resolve_left (by simpa using some)).resolve_left fun slash =>
        unrooted (isRooted_iff.mpr slash)
      obtain ⟨part, member, forbidden⟩ := parts
      rw [← Path.split_eq_splitOn] at member
      have isForbidden : isForbidden part = true := by
        simpa [isForbidden, or_assoc] using forbidden
      rw [if_pos (List.any_eq_true.mpr ⟨part, member, isForbidden⟩)]
      exact ⟨_, rfl⟩

theorem checkName_of_not_refused (accepted : ¬Refused package) : checkName package = .ok () := by
  simp only [Refused, not_or, not_exists, not_and] at accepted
  obtain ⟨some, unrooted, parts⟩ := accepted
  have proper : ¬(Path.split '/' package.toList).any isForbidden = true := by
    rw [Path.split_eq_splitOn, List.any_eq_true]
    rintro ⟨part, member, forbidden⟩
    have clean := parts part member
    simp_all [isForbidden]
  rw [← isRooted_iff] at unrooted
  rw [checkName, if_neg (by simpa using some), if_neg unrooted, if_neg proper]

theorem isName_of_not_refused (accepted : ¬Refused package) {part : List Char}
    (member : part ∈ package.toList.splitOn '/') : IsElement part ∧ part ≠ ['.', '.'] := by
  simp only [Refused, not_or, not_exists, not_and] at accepted
  obtain ⟨nonempty, dot, up⟩ := accepted.2.2 part member
  rw [← Path.split_eq_splitOn] at member
  exact ⟨⟨Path.not_mem_of_mem_split member, nonempty, dot⟩, up⟩

theorem properParts_of_not_refused (accepted : ¬Refused package) :
    properParts package = package.toList.splitOn '/' := by
  refine List.filter_eq_self.mpr fun part member => ?_
  simpa using (isName_of_not_refused accepted member).1.2

/-! ### Source files -/

/-- The name has the extension behind its last dot, and the stem in front of it is not empty and not
that of a test. -/
def IsSource (extension name : String) : Prop :=
  ∃ stem, stem ≠ [] ∧ '.' ∉ extension.toList ∧ name.toList = stem ++ '.' :: extension.toList ∧
    ¬testMark <:+ stem

theorem isMember_iff (named : IsName entry.name) :
    locator.isMember entry = true ↔
      entry.isFile = true ∧ IsSource locator.extension entry.name := by
  have parts {stem extension : List Char} :=
    @Path.stemAndExtension_eq_iff entry.name.toList stem extension named.2
  unfold isMember
  generalize parted : Path.stemAndExtension entry.name.toList = pair at parts
  obtain ⟨stem, extension⟩ := pair
  simp only [Bool.and_eq_true, decide_eq_true_eq, Bool.not_eq_true', ← Bool.not_eq_true,
    List.isSuffixOf_iff_suffix]
  constructor
  · rintro ⟨⟨isFile, rfl⟩, plain⟩
    obtain ⟨nonempty, last, spelled⟩ := parts.mp rfl
    exact ⟨isFile, stem, nonempty, last, spelled, plain⟩
  · rintro ⟨isFile, other, nonempty, last, spelled, plain⟩
    obtain ⟨rfl, rfl⟩ := Prod.mk.inj (parts.mpr ⟨nonempty, last, spelled⟩)
    exact ⟨⟨isFile, rfl⟩, plain⟩

/-- The names of the source files of a directory with these entries, in order. -/
structure Sources (extension : String) (entries : List Entry) (names : List String) : Prop where
  exact : ∀ name, name ∈ names ↔ ⟨name, true⟩ ∈ entries ∧ IsSource extension name
  sorted : names.Pairwise (· < ·)

/-- The names of the member files, as the locator orders them. -/
def memberNames (locator : Locator) (entries : List Entry) : List String :=
  ((entries.filter locator.isMember).map (·.name)).mergeSort fun a b => a ≤ b

theorem members_eq (locator : Locator) (directory : String) (entries : List Entry) :
    locator.members directory entries =
      (locator.memberNames entries).map fun name => Path.normalize (join directory name) := rfl

theorem memberNames_sources (named : ∀ entry ∈ entries, IsName entry.name)
    (distinct : (entries.map (·.name)).Nodup) :
    Sources locator.extension entries (locator.memberNames entries) where
  exact name := by
    rw [memberNames, List.mem_mergeSort, List.mem_map]
    constructor
    · rintro ⟨⟨_, isFile⟩, member, rfl⟩
      obtain ⟨listed, isMember⟩ := List.mem_filter.mp member
      obtain ⟨rfl, source⟩ := (isMember_iff (named _ listed)).mp isMember
      exact ⟨listed, source⟩
    · rintro ⟨listed, source⟩
      exact ⟨⟨name, true⟩, List.mem_filter.mpr
        ⟨listed, (isMember_iff (named _ listed)).mpr ⟨rfl, source⟩⟩, rfl⟩
  sorted := by
    have unique : (locator.memberNames entries).Nodup :=
      (List.mergeSort_perm _ _).nodup_iff.mpr (distinct.sublist (List.filter_sublist.map _))
    have ordered : (locator.memberNames entries).Pairwise fun a b => decide (a ≤ b) = true := by
      refine List.pairwise_mergeSort (fun a b c => ?_) (fun a b => ?_) _
      · simpa using String.le_trans
      · simpa using String.le_total a b
    refine (ordered.and unique).imp fun {a b} both => ?_
    obtain ⟨ordered, apart⟩ := both
    exact String.not_le.mp fun back => apart (String.le_antisymm (of_decide_eq_true ordered) back)

/-! ### Where the files are -/

/-- The file is directly in the directory. -/
def Inside (directory file : String) : Prop :=
  isRooted file.toList = isRooted directory.toList ∧
    ∃ name, IsName name ∧ properParts file = properParts directory ++ [name.toList]

/-- The name of the file continues that of the root, and never goes up again. -/
def Below (root file : String) : Prop :=
  isRooted file.toList = isRooted root.toList ∧
    ∃ way, way ≠ [] ∧ ['.', '.'] ∉ way ∧ properParts file = properParts root ++ way

theorem properParts_file (directory : String) (named : IsName name) :
    properParts (Path.normalize (join directory name)) = properParts directory ++ [name.toList] := by
  simp only [← Path.elements_eq_properParts, Path.normalize, String.toList_ofList,
    Path.elements_normalizeChars, Path.elements_join, Path.elements_of_isElement named.1]

theorem isRooted_file (directory : String) (named : IsName name) :
    isRooted (Path.normalize (join directory name)).toList = isRooted directory.toList := by
  rw [Path.normalize, String.toList_ofList, Path.isRooted_normalizeChars,
    Path.isRooted_join directory named.1.not_isRooted]

theorem inside_file (directory : String) (named : IsName name) :
    Inside directory (Path.normalize (join directory name)) :=
  ⟨isRooted_file directory named, name, named, properParts_file directory named⟩

theorem Inside.below {file : String} (accepted : ¬Refused package)
    (inside : Inside (join root package) file) : Below root file := by
  obtain ⟨rooted, name, named, parts⟩ := inside
  have unrooted : isRooted package.toList = false :=
    Bool.eq_false_iff.mpr fun slash => accepted (.inr (.inl (isRooted_iff.mp slash)))
  refine ⟨rooted.trans (Path.isRooted_join root unrooted),
    package.toList.splitOn '/' ++ [name.toList], by simp, ?_, ?_⟩
  · rw [List.mem_append, List.mem_singleton]
    exact fun up => up.elim (fun member => (isName_of_not_refused accepted member).2 rfl)
      fun same => named.2 same.symm
  · rw [parts, ← properParts_of_not_refused accepted, ← List.append_assoc]
    simp only [← Path.elements_eq_properParts, Path.elements_join]

/-! ### The search -/

/-- The files are the source files of the package's directory under the root. -/
structure Located (extension root package : String) (entries : List Entry) (files : List String) :
    Prop where
  exact : ∃ names, Sources extension entries names ∧
    files = names.map fun name => Path.normalize (join (join root package) name)
  unique : files.Nodup
  confined : ∀ file ∈ files, Inside (join root package) file ∧ Below root file

theorem located_members (accepted : ¬Refused package)
    (named : ∀ entry ∈ entries, IsName entry.name) (distinct : (entries.map (·.name)).Nodup) :
    Located locator.extension root package entries
      (locator.members (join root package) entries) := by
  have sources := @memberNames_sources locator entries named distinct
  have names {name : String} (member : name ∈ locator.memberNames entries) : IsName name :=
    named _ ((sources.exact name).mp member).1
  refine ⟨⟨_, sources, members_eq ..⟩, ?_, ?_⟩
  · rw [members_eq, List.Nodup, List.pairwise_map]
    refine sources.sorted.imp_of_mem fun {a b} first second less same => ?_
    -- Two files of one name would have the same last part.
    have parts := congrArg properParts same
    rw [properParts_file _ (names first), properParts_file _ (names second)] at parts
    have equal : a = b := String.toList_inj.mp (by simpa using parts)
    exact String.lt_irrefl b (equal ▸ less)
  · rw [members_eq]
    intro file member
    obtain ⟨name, listed, rfl⟩ := List.mem_map.mp member
    have inside := inside_file (join root package) (names listed)
    exact ⟨inside, inside.below accepted⟩

/-- What a search for a package promises. -/
structure Exact (locator : Locator) (entries? : String → Option (Except FileError (List Entry)))
    (package : String) : Prop where
  /-- A name is refused exactly if it does not spell out a way down. -/
  refuses : (∃ reason, locator.locate entries? package = .error (.invalidName package reason)) ↔
    Refused package
  /-- The first root that has a directory for the package decides, and gives its source files. -/
  finds : ∀ {before root after entries}, ¬Refused package →
    locator.roots = before ++ root :: after →
    (∀ earlier ∈ before, entries? (join earlier package) = none) →
    entries? (join root package) = some (.ok entries) →
    ∃ files, locator.locate entries? package = .ok files ∧
      Located locator.extension root package entries files
  /-- If no root has one, the error tells where it was looked for. -/
  misses : ¬Refused package → (∀ root ∈ locator.roots, entries? (join root package) = none) →
    locator.locate entries? package =
      .error (.notFound package (locator.roots.map fun root => join root package))

theorem locate_of_refused (refused : Refused package) :
    ∃ reason, locator.locate entries? package = .error (.invalidName package reason) := by
  obtain ⟨reason, checked⟩ := checkName_of_refused refused
  exact ⟨reason, by rw [locate, checked]; rfl⟩

theorem findSome?_of_absent {roots : List String}
    (absent : ∀ root ∈ roots, entries? (join root package) = none) :
    (roots.map fun root => join root package).findSome? (fun directory =>
      (entries? directory).map fun listing => (directory, listing)) = none := by
  rw [List.findSome?_eq_none_iff]
  intro directory member
  obtain ⟨root, isRoot, rfl⟩ := List.mem_map.mp member
  rw [absent root isRoot]
  rfl

theorem locate_of_found {before after : List String} (accepted : ¬Refused package)
    (roots : locator.roots = before ++ root :: after)
    (absent : ∀ earlier ∈ before, entries? (join earlier package) = none)
    (present : entries? (join root package) = some (.ok entries)) :
    locator.locate entries? package = .ok (locator.members (join root package) entries) := by
  have found : (locator.candidates package).findSome? (fun directory =>
      (entries? directory).map fun listing => (directory, listing)) =
        some (join root package, .ok entries) := by
    rw [candidates, roots, List.map_append, List.findSome?_append, findSome?_of_absent absent,
      Option.none_or, List.map_cons, List.findSome?_cons, present]
    rfl
  rw [locate, checkName_of_not_refused accepted]
  simp only [found]
  rfl

theorem locate_of_missing (accepted : ¬Refused package)
    (absent : ∀ root ∈ locator.roots, entries? (join root package) = none) :
    locator.locate entries? package =
      .error (.notFound package (locator.roots.map fun root => join root package)) := by
  have nowhere := findSome?_of_absent absent
  rw [← candidates] at nowhere
  rw [locate, checkName_of_not_refused accepted]
  simp only [nowhere]
  rfl

theorem first_or_none (readable : Readable entries?) (roots : List String) (package : String) :
    (∃ before root after entries, roots = before ++ root :: after ∧
      (∀ earlier ∈ before, entries? (join earlier package) = none) ∧
      entries? (join root package) = some (.ok entries)) ∨
    ∀ root ∈ roots, entries? (join root package) = none := by
  induction roots with
  | nil => exact .inr nofun
  | cons root rest ih =>
    cases present : entries? (join root package) with
    | some listing =>
      obtain ⟨entries, rfl⟩ := readable.listed present
      exact .inl ⟨[], root, rest, entries, rfl, nofun, present⟩
    | none =>
      refine ih.imp ?_ fun absent => List.forall_mem_cons.mpr ⟨present, absent⟩
      rintro ⟨before, first, after, entries, rfl, absent, found⟩
      exact ⟨root :: before, first, after, entries, rfl,
        List.forall_mem_cons.mpr ⟨present, absent⟩, found⟩

end GoFront.Locator
