import GoFront.Frontend
import GoFront.Names
import Mathlib.Tactic.Tauto

/-! Membership and repetition in lists, sets of names, tables and import lists. -/
namespace GoFront

/-! ### Lists without repeats -/

theorem nodup_eraseDups {α : Type} [BEq α] [LawfulBEq α] (items : List α) :
    items.eraseDups.Nodup := by
  match items with
  | [] => exact List.nodup_nil
  | first :: rest =>
    rw [List.eraseDups_cons, List.nodup_cons, List.mem_eraseDups]
    exact ⟨by simp, nodup_eraseDups _⟩
termination_by items.length
decreasing_by exact Nat.lt_succ_of_le (List.length_filter_le _ rest)

/-- Items that were taken out of a list one by one. -/
theorem removeAll_of_mem_iff {α : Type} [BEq α] [LawfulBEq α] {first : α} {seen grown : List α}
    (grows : ∀ item, item ∈ grown ↔ item = first ∨ item ∈ seen) (items : List α) :
    items.removeAll grown = (items.removeAll seen).filter fun item => !item == first := by
  simp only [List.removeAll, List.filter_filter]
  refine List.filter_congr fun item _ => ?_
  rw [Bool.eq_iff_iff]
  simp [grows]

theorem mem_removeAll {α : Type} [BEq α] [LawfulBEq α] {item : α} {items gone : List α} :
    item ∈ items.removeAll gone ↔ item ∈ items ∧ item ∉ gone := by
  simp [List.removeAll]

/-- The keys of the first items of each key. -/
theorem map_eraseDupsBy {α κ : Type} [BEq κ] (key : α → κ) (items : List α) :
    (items.eraseDupsBy (key · == key ·)).map key = (items.map key).eraseDups := by
  match items with
  | [] => rfl
  | first :: rest =>
    rw [List.eraseDupsBy_cons, List.map_cons, List.map_cons, List.eraseDups_cons,
      map_eraseDupsBy key, List.filter_map]
    congr 3
    refine List.filter_congr fun other _ => ?_
    cases same : key other == key first <;> simp [same]
termination_by items.length
decreasing_by exact Nat.lt_succ_of_le (List.length_filter_le _ rest)

/-! ### The first with each key -/

section
variable {α κ : Type} [DecidableEq κ] {key : α → κ} {wanted : List κ} {item : α} {items : List α}

/-- Of the items whose key is wanted, the first one with each key, in order. -/
def firsts (key : α → κ) (wanted : List κ) (items : List α) : List α :=
  (items.filter (key · ∈ wanted)).eraseDupsBy (key · == key ·)

@[simp] theorem firsts_nil : firsts key wanted [] = [] := rfl

@[simp] theorem firsts_none : firsts key [] items = [] := by
  have none : items.filter (key · ∈ ([] : List κ)) = [] := by simp
  rw [firsts, none, List.eraseDupsBy_nil]

theorem firsts_cons_of_mem (isWanted : key item ∈ wanted) :
    firsts key wanted (item :: items) =
      item :: firsts key (wanted.filter (· ≠ key item)) items := by
  have later : (items.filter (key · ∈ wanted)).filter (fun other => (key other == key item) = false) =
      items.filter (key · ∈ wanted.filter (· ≠ key item)) := by
    rw [List.filter_filter]
    refine List.filter_congr fun other _ => ?_
    by_cases same : key other = key item <;> simp [same]
  rw [firsts, List.filter_cons_of_pos (by simpa using isWanted), List.eraseDupsBy_cons, later, firsts]

theorem firsts_cons_of_not_mem (unwanted : key item ∉ wanted) :
    firsts key wanted (item :: items) = firsts key wanted items := by
  rw [firsts, List.filter_cons_of_neg (by simpa using unwanted), firsts]

/-- An item counts if its key is wanted; behind it the key is not wanted any more. -/
theorem firsts_cons : firsts key wanted (item :: items) =
    (if key item ∈ wanted then [item] else []) ++
      firsts key (wanted.filter (· ≠ key item)) items := by
  split
  next isWanted => exact firsts_cons_of_mem isWanted
  next unwanted =>
    have same : wanted.filter (· ≠ key item) = wanted :=
      List.filter_eq_self.mpr fun k mem => by simpa using ne_of_mem_of_not_mem mem unwanted
    rw [firsts_cons_of_not_mem unwanted, same, List.nil_append]

theorem firsts_congr {others : List κ} (same : ∀ k, k ∈ wanted ↔ k ∈ others) :
    firsts key wanted items = firsts key others items := by
  simp only [firsts, same]

/-- The items that count are those that a search for their key finds. -/
theorem mem_firsts : item ∈ firsts key wanted items ↔
    key item ∈ wanted ∧ items.find? (key · = key item) = some item := by
  induction items generalizing wanted with
  | nil => simp
  | cons first rest ih =>
    by_cases same : key first = key item
    · rw [List.find?_cons_of_pos (by simpa using same)]
      by_cases isWanted : key first ∈ wanted
      · rw [firsts_cons_of_mem isWanted, List.mem_cons, ih]
        simp [← same, isWanted, eq_comm]
      · rw [firsts_cons_of_not_mem isWanted, ih]
        simp [← same, isWanted]
    · rw [List.find?_cons_of_neg (by simpa using same), firsts_cons, List.mem_append, ih]
      have other : item ∉ if key first ∈ wanted then [first] else [] := by
        split
        · simpa using fun isFirst : item = first => same (isFirst ▸ rfl)
        · simp
      simp [other, Ne.symm same]

theorem mem_of_mem_firsts (mem : item ∈ firsts key wanted items) :
    item ∈ items ∧ key item ∈ wanted :=
  ⟨List.mem_of_find?_eq_some (mem_firsts.mp mem).2, (mem_firsts.mp mem).1⟩

theorem exists_mem_firsts (mem : item ∈ items) (isWanted : key item ∈ wanted) :
    ∃ first ∈ firsts key wanted items, key first = key item := by
  have found : (items.find? (key · = key item)).isSome :=
    List.find?_isSome.mpr ⟨item, mem, by simp⟩
  obtain ⟨first, isFirst⟩ := Option.isSome_iff_exists.mp found
  have same : key first = key item := by simpa using List.find?_some isFirst
  exact ⟨first, mem_firsts.mpr ⟨same ▸ isWanted, same ▸ isFirst⟩, same⟩

/-- All wanted keys are found among the items that count if they are found at all. -/
theorem mem_map_firsts : (∀ k ∈ wanted, k ∈ items.map key) ↔
    ∀ k ∈ wanted, k ∈ (firsts key wanted items).map key := by
  refine forall₂_congr fun k isWanted => ?_
  constructor
  · intro present
    obtain ⟨item, mem, rfl⟩ := List.mem_map.mp present
    obtain ⟨first, counts, same⟩ := exists_mem_firsts mem isWanted
    exact List.mem_map.mpr ⟨first, counts, same⟩
  · intro present
    obtain ⟨item, counts, rfl⟩ := List.mem_map.mp present
    exact List.mem_map_of_mem (mem_of_mem_firsts counts).1

end

/-! ### Sets of names -/

namespace Names

@[simp] theorem ofList_eq_nil {names : List String} : ofList names = [] ↔ names = [] := by
  simp only [List.eq_nil_iff_forall_not_mem, mem_ofList]

theorem nodup_insert {name : String} {names : List String} (unique : names.Nodup)
    (fresh : name ∉ names) : (insert name names).Nodup := by
  induction names with
  | nil => simp [insert]
  | cons first rest ih =>
    obtain ⟨away, unique⟩ := List.nodup_cons.mp unique
    have apart : name ≠ first := fun same => fresh (same ▸ List.mem_cons_self)
    have absent : name ∉ rest := fun mem => fresh (List.mem_cons_of_mem _ mem)
    unfold insert
    rw [if_neg apart]
    split
    · exact List.nodup_cons.mpr ⟨fresh, List.nodup_cons.mpr ⟨away, unique⟩⟩
    · refine List.nodup_cons.mpr ⟨?_, ih unique absent⟩
      simp [away, apart.symm]

theorem pairwise_insert {name : String} {names : List String}
    (sorted : names.Pairwise (· < ·)) : (insert name names).Pairwise (· < ·) := by
  induction names with
  | nil => exact List.pairwise_singleton _ _
  | cons first rest ih =>
    obtain ⟨least, sortedRest⟩ := List.pairwise_cons.mp sorted
    unfold insert
    split
    · exact sorted
    next apart =>
      split
      next less =>
        refine List.pairwise_cons.mpr ⟨?_, sorted⟩
        exact List.forall_mem_cons.mpr
          ⟨less, fun other mem => String.lt_trans less (least other mem)⟩
      next notLess =>
        have greater : first < name :=
          Std.lt_of_le_of_ne (String.not_lt.mp notLess) (Ne.symm apart)
        refine List.pairwise_cons.mpr ⟨fun other mem => ?_, ih sortedRest⟩
        rcases mem_insert.mp mem with rfl | old
        · exact greater
        · exact least other old

/-- The names of a set are in order, each once. -/
theorem pairwise_ofList (names : List String) : (ofList names).Pairwise (· < ·) :=
  List.foldlRecOn names _ List.Pairwise.nil fun _ sorted _ _ => pairwise_insert sorted

theorem distinct_eq (names : List String) : distinct names = names.eraseDups := by
  have folded : ∀ (names seen : List String),
      names.foldl (fun seen name => if name ∈ seen then seen else seen ++ [name]) seen =
        seen ++ (names.removeAll seen).eraseDups := by
    intro names
    induction names with
    | nil => simp
    | cons first rest ih =>
      intro seen
      rw [List.foldl_cons, ih, List.cons_removeAll]
      split
      next known => rw [if_neg (by simpa using known)]
      next fresh =>
        have grows : ∀ name, name ∈ seen ++ [first] ↔ name = first ∨ name ∈ seen := by
          intro name
          rw [List.mem_append, List.mem_singleton, or_comm]
        have later := removeAll_of_mem_iff grows rest
        rw [if_pos (by simpa using fresh), List.eraseDups_cons, later, List.append_assoc,
          List.singleton_append]
  rw [distinct, folded, List.removeAll_nil, List.nil_append]

theorem nodup_distinct (names : List String) : (distinct names).Nodup := by
  rw [distinct_eq]
  exact nodup_eraseDups names

@[simp] theorem mem_distinct {name : String} {names : List String} :
    name ∈ distinct names ↔ name ∈ names := by
  rw [distinct_eq, List.mem_eraseDups]

end Names

namespace Table

variable {α : Type}

@[simp] theorem get?_empty (name : String) : ({} : Table α).get? name = none := rfl

@[simp] theorem get?_erase (table : Table α) (name other : String) :
    (table.erase name).get? other = if other = name then none else table.get? other := by
  obtain ⟨entries⟩ := table
  simp only [get?, erase]
  induction entries with
  | nil => simp
  | cons entry rest ih =>
    obtain ⟨key, value⟩ := entry
    by_cases gone : key = name <;> by_cases hit : other = key <;>
      grind [List.filter]

/-- What holds of all entries holds still after a change, if it holds of the new value. -/
theorem forall_set {property : String → α → Prop} {table : Table α} {name : String} {value : α}
    (old : ∀ {other entry}, table.get? other = some entry → property other entry)
    (new : property name value) :
    ∀ {other entry}, (table.set name value).get? other = some entry → property other entry := by
  intro other entry read
  rw [get?_set] at read
  split at read
  · rename_i same
    obtain rfl := Option.some.inj read
    exact same ▸ new
  · exact old read

/-- Names that have a value keep one. -/
theorem exists_set {table : Table α} {name other : String} {value : α}
    (known : ∃ old, table.get? other = some old) :
    ∃ new, (table.set name value).get? other = some new := by
  rw [get?_set]
  split
  · exact ⟨value, rfl⟩
  · exact known

theorem exists_set_self {table : Table α} {name : String} {value : α} :
    ∃ new, (table.set name value).get? name = some new := ⟨value, by simp⟩

/-- What stands in a table is kept when an entry is added. -/
theorem keeps_new {table : Table α} {name other : String} {value entry : α}
    (unknown : table.get? name = none) (there : table.get? other = some entry) :
    (table.set name value).get? other = some entry := by
  have apart : other ≠ name := by
    rintro rfl
    simp [unknown] at there
  simpa [apart] using there

end Table

namespace ImportSite

/-- The first import of each package is what is left without repeats. -/
theorem firstOfEach_eq (sites : List ImportSite) :
    firstOfEach sites = sites.eraseDupsBy (·.package == ·.package) := by
  have folded : ∀ (sites seen : List ImportSite),
      sites.foldl (fun seen site =>
          if seen.any (·.package = site.package) then seen else seen ++ [site]) seen =
        seen ++ (sites.filter fun site => !seen.any (·.package = site.package)).eraseDupsBy
          (·.package == ·.package) := by
    intro sites
    induction sites with
    | nil => simp
    | cons first rest ih =>
      intro seen
      rw [List.foldl_cons]
      split
      · rename_i known
        rw [ih, List.filter_cons_of_neg (by simp only [known]; decide)]
      · rename_i unknown
        have fresh : (!seen.any (·.package = first.package)) = true := by simpa using unknown
        have later : (rest.filter fun site => !seen.any (·.package = site.package)).filter
              (fun site => (site.package == first.package) = false) =
            rest.filter fun site => !(seen ++ [first]).any (·.package = site.package) := by
          rw [List.filter_filter]
          refine List.filter_congr fun site _ => ?_
          by_cases same : site.package = first.package
          · simp [same]
          · have apart : first.package ≠ site.package := Ne.symm same
            simp [same, apart]
        rw [ih, List.filter_cons_of_pos (by exact fresh), List.eraseDupsBy_cons, later,
          List.append_assoc, List.singleton_append]
  have all : (sites.filter fun site => !([] : List ImportSite).any (·.package = site.package)) =
      sites := List.filter_eq_self.mpr fun _ _ => rfl
  rw [firstOfEach, folded, all, List.nil_append]

theorem map_package_firstOfEach (sites : List ImportSite) :
    (firstOfEach sites).map (·.package) = (sites.map (·.package)).eraseDups := by
  rw [firstOfEach_eq]
  exact map_eraseDupsBy _ sites

theorem mem_firstOfEach {sites : List ImportSite} {package : String} :
    package ∈ (firstOfEach sites).map (·.package) ↔ package ∈ sites.map (·.package) := by
  rw [map_package_firstOfEach, List.mem_eraseDups]

/-- The import that stands for a package is the first one of it. -/
theorem find?_of_mem_firstOfEach {sites : List ImportSite} {site : ImportSite}
    (member : site ∈ firstOfEach sites) :
    sites.find? (·.package = site.package) = some site := by
  have all : sites.filter (·.package ∈ sites.map (·.package)) = sites :=
    List.filter_eq_self.mpr fun other mem => by simpa using ⟨other, mem, rfl⟩
  have first : site ∈ firsts (·.package) (sites.map (·.package)) sites := by
    rw [firsts, all, ← firstOfEach_eq]
    exact member
  exact (mem_firsts.mp first).2

theorem mem_of_mem_firstOfEach {sites : List ImportSite} {site : ImportSite}
    (member : site ∈ firstOfEach sites) : site ∈ sites :=
  List.mem_of_find?_eq_some (find?_of_mem_firstOfEach member)

end ImportSite

namespace ParsedFile

/-- The packages that a file imports, each once and in order. -/
theorem map_package_imports (parsed : ParsedFile) :
    parsed.imports.map (·.package) = parsed.file.importPaths.eraseDups := by
  rw [imports, ImportSite.map_package_firstOfEach, SourceFile.importSites, List.map_map]
  rfl

theorem nodup_imports (parsed : ParsedFile) : (parsed.imports.map (·.package)).Nodup := by
  rw [map_package_imports]
  exact nodup_eraseDups _

@[simp] theorem mem_imports {parsed : ParsedFile} {package : String} :
    package ∈ parsed.imports.map (·.package) ↔ package ∈ parsed.file.importPaths := by
  rw [map_package_imports, List.mem_eraseDups]

end ParsedFile

end GoFront
