/-!
Sets of names and tables by name, both kept in the order of the names so that they read the same
however they were filled.
-/
namespace GoFront

namespace Names

/-- Adds a name to an increasing list without repeats. -/
def insert (name : String) : List String → List String
  | [] => [name]
  | other :: rest =>
    if name = other then other :: rest
    else if name < other then name :: other :: rest
    else other :: insert name rest

def ofList (names : List String) : List String := names.foldl (fun set name => insert name set) []

/-- The names without those that came before, in the order of their first occurrence. -/
def distinct (names : List String) : List String :=
  names.foldl (fun seen name => if name ∈ seen then seen else seen ++ [name]) []

@[simp] theorem mem_insert {name other : String} {names : List String} :
    other ∈ insert name names ↔ other = name ∨ other ∈ names := by
  induction names with
  | nil => simp [insert]
  | cons first rest ih => grind [insert]

theorem mem_foldl_insert {name : String} (names set : List String) :
    name ∈ names.foldl (fun set name => insert name set) set ↔ name ∈ names ∨ name ∈ set := by
  induction names generalizing set with
  | nil => simp
  | cons first rest ih =>
    rw [List.foldl_cons, ih, mem_insert, List.mem_cons, or_left_comm, or_assoc]

@[simp] theorem mem_ofList {name : String} {names : List String} :
    name ∈ ofList names ↔ name ∈ names := by
  simp [ofList, mem_foldl_insert]

end Names

structure Table (α : Type) where
  entries : List (String × α) := []
  deriving Repr

namespace Table

variable {α : Type}

def get? (table : Table α) (name : String) : Option α := table.entries.lookup name

/-- The entries with the value of a name set, in the order of the names. -/
def setEntry (name : String) (value : α) : List (String × α) → List (String × α)
  | [] => [(name, value)]
  | (other, old) :: rest =>
    if name = other then (name, value) :: rest
    else if name < other then (name, value) :: (other, old) :: rest
    else (other, old) :: setEntry name value rest

def set (table : Table α) (name : String) (value : α) : Table α :=
  ⟨setEntry name value table.entries⟩

def erase (table : Table α) (name : String) : Table α :=
  ⟨table.entries.filter fun (other, _) => other ≠ name⟩

def keys (table : Table α) : List String := table.entries.map (·.1)

def values (table : Table α) : List α := table.entries.map (·.2)

@[simp] theorem get?_set (table : Table α) (name other : String) (value : α) :
    (table.set name value).get? other = if other = name then some value else table.get? other := by
  obtain ⟨entries⟩ := table
  simp only [get?, set]
  induction entries with
  | nil => grind [setEntry]
  | cons entry rest ih =>
    obtain ⟨key, old⟩ := entry
    by_cases h : other = name <;> by_cases hk : other = key <;>
      grind [setEntry]

theorem mem_keys {table : Table α} {name : String} :
    name ∈ table.keys ↔ ∃ value, table.get? name = some value := by
  obtain ⟨entries⟩ := table
  simp only [keys, get?]
  induction entries with
  | nil => simp
  | cons entry rest ih =>
    obtain ⟨key, value⟩ := entry
    by_cases hit : name = key
    · simp [hit]
    · have miss : (name == key) = false := by simpa using hit
      rw [List.map_cons, List.mem_cons, ih, List.lookup_cons, miss]
      simp [hit]

theorem mem_values {table : Table α} {name : String} {value : α}
    (known : table.get? name = some value) : value ∈ table.values := by
  obtain ⟨entries⟩ := table
  simp only [values, get?] at known ⊢
  induction entries with
  | nil => simp at known
  | cons entry rest ih =>
    obtain ⟨key, other⟩ := entry
    by_cases hit : name = key <;> grind

end Table

end GoFront
