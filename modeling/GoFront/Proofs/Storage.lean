import GoFront.Storage
import GoFront.Proofs.Names
import GoFront.Proofs.Path

/-!
Directories and their listings. The directories of a tree can be read, and a listing has each name
once.
-/
namespace GoFront

open GoFront.Path (IsName join isRooted)

/-- All directories can be read, and their entries have names of their own. -/
structure Readable (entries? : String → Option (Except FileError (List Entry))) : Prop where
  listed : ∀ {directory listing}, entries? directory = some listing →
    ∃ entries, listing = .ok entries
  named : ∀ {directory entries}, entries? directory = some (.ok entries) →
    ∀ entry ∈ entries, IsName entry.name
  distinct : ∀ {directory entries}, entries? directory = some (.ok entries) →
    (entries.map (·.name)).Nodup

/-- The name of something in a directory that the operating system accepts. -/
structure Storable (name : String) : Prop where
  isName : IsName name
  clean : '\x00' ∉ name.toList
  short : Text.byteLength name.toList ≤ 255

instance (name : String) : Decidable (Storable name) :=
  decidable_of_iff (IsName name ∧ '\x00' ∉ name.toList ∧ Text.byteLength name.toList ≤ 255)
    ⟨fun ⟨isName, clean, short⟩ => ⟨isName, clean, short⟩,
      fun ⟨isName, clean, short⟩ => ⟨isName, clean, short⟩⟩

namespace Tree

variable {tree : Tree} {directory name : String} {path : List String} {entries : List Entry}

/-- The elements of all paths can stand in a directory. -/
def Proper (tree : Tree) : Prop := ∀ entry ∈ tree.nodes, ∀ part ∈ entry.1, Storable part

instance (tree : Tree) : Decidable tree.Proper :=
  inferInstanceAs (Decidable (∀ entry ∈ tree.nodes, ∀ part ∈ entry.1, Storable part))

theorem isName_of_mem_children (proper : tree.Proper) :
    ∀ entry ∈ tree.children path, IsName entry.name := by
  intro entry member
  obtain ⟨name, listed, rfl⟩ := List.mem_map.mp member
  obtain ⟨⟨other, node⟩, stored, below⟩ := List.mem_filterMap.mp (List.mem_eraseDups.mp listed)
  dsimp only at below
  split at below
  · have part := List.mem_of_mem_drop (List.mem_of_mem_head? below)
    exact (proper _ stored name part).isName
  · nomatch below

theorem nodup_children (tree : Tree) (path : List String) :
    ((tree.children path).map (·.name)).Nodup := by
  rw [children, List.map_map]
  exact (List.map_id _).symm ▸ nodup_eraseDups _

theorem entries?_eq_some {listing : Except FileError (List Entry)}
    (present : tree.entries? directory = some listing) :
    tree.resolve directory = .ok .outside ∧ listing = .ok [] ∨
    ∃ path, tree.resolve directory = .ok (.inside path) ∧
      tree.node? path.reverse = some .directory ∧ listing = .ok (tree.children path.reverse) := by
  unfold entries? at present
  split at present
  next => nomatch present
  next place => exact .inl ⟨place, (Option.some.inj present).symm⟩
  next path place =>
    split at present
    next isDirectory => exact .inr ⟨path, place, isDirectory, (Option.some.inj present).symm⟩
    next => nomatch present

theorem entries_cases (present : tree.entries? directory = some (.ok entries)) :
    entries = [] ∨ ∃ path, entries = tree.children path := by
  obtain ⟨_, listing⟩ | ⟨path, _, _, listing⟩ := entries?_eq_some present
  · exact .inl (Except.ok.inj listing)
  · exact .inr ⟨_, Except.ok.inj listing⟩

/-- The directories of a tree can always be read. -/
theorem readable (proper : tree.Proper) : Readable tree.entries? where
  listed present := by
    obtain ⟨_, listing⟩ | ⟨_, _, _, listing⟩ := entries?_eq_some present
    · exact ⟨_, listing⟩
    · exact ⟨_, listing⟩
  named present := by
    obtain rfl | ⟨path, rfl⟩ := entries_cases present
    · nofun
    · exact isName_of_mem_children proper
  distinct present := by
    obtain rfl | ⟨path, rfl⟩ := entries_cases present
    · exact List.nodup_nil
    · exact nodup_children tree path

end Tree

end GoFront
