import GoFront.Proofs.Symbol.Methods

/-!
What the symbol table of a file holds. A file has a table if the keys of its entries differ, and the
table then is the list of the entries; otherwise the first entry whose key is taken is reported,
with the place of the entry that has it.
-/
namespace GoFront

/-- The lines of help beside the report that the name of a symbol is taken since the position. -/
def Symbol.clashHelp (symbol : Symbol) (first : Position) : String :=
  let hints := match symbol.kind with
    | .declared _ => []
    | .imported path => [s!"hint: import \"{path}\" under a different name"]
  "\n".intercalate (s!"note: previous declaration at {first.text}" :: hints)

namespace SourceFile

variable {file : SourceFile}

/-- What the declarations of a file name, then what its imports bind, in order. -/
def entries (file : SourceFile) : List Symbol :=
  file.declaredSites.filterMap file.symbolAt ++ file.importedSites.filterMap file.symbolAt

theorem entries_eq (file : SourceFile) : file.entries = file.sites.filterMap file.symbolAt := by
  rw [entries, sites, List.filterMap_append]

theorem names_entries (file : SourceFile) : file.entries.map (·.name) = keysOf file.sites := by
  rw [entries_eq]
  exact names_tableOf file file.sites

theorem lookup_tableOf {name : String} {table : SymbolTable}
    (made : file.createSymbols name = .ok table) (key : String) :
    table.lookup key = file.entries.find? (·.name = key) := by
  obtain ⟨distinct, rfl⟩ := createSymbols_eq_ok_iff.mp made
  rw [lookup_eq_find? (by rwa [names_tableOf]), entries_eq, tableOf]

/-- The failure that the report of a clash amounts to. -/
theorem ofDiagnostic_clashReport {second : Spanned Site} {symbol : Symbol}
    (isSymbol : file.symbolAt second = some symbol) (name : String) (first : Position) :
    Failure.ofDiagnostic name file.lines (second.clashReport symbol.name first) =
      .naming name symbol.position s!"`{symbol.name}` redeclared in this block"
        (some (symbol.clashHelp first)) := by
  obtain ⟨key, -, rfl⟩ := Option.map_eq_some_iff.mp isSymbol
  obtain ⟨site, span⟩ := second
  cases site <;> rfl

/-- A clash of sites is a clash of the symbols at them. -/
theorem entries_of_clash {key : String} {first second : Spanned Site}
    (clash : Clash file.sites key first second) :
    ∃ before earlier entry after, file.entries = before ++ entry :: after ∧
      (before.map (·.name)).Nodup ∧ earlier ∈ before ∧ earlier.name = entry.name ∧
      earlier.position = file.position first.span ∧ file.symbolAt second = some entry ∧
      entry.name = key := by
  obtain ⟨⟨before, after, split, mem, distinct⟩, isFirst, isSecond⟩ := clash
  have named : ∀ site : Spanned Site, site.value.key? = some key → file.symbolAt site =
      some ⟨key, site.value.kind, site.span, file.position site.span⟩ := by
    intro site isKey
    rw [symbolAt, isKey, Option.map_some]
  refine ⟨before.filterMap file.symbolAt, _, _, after.filterMap file.symbolAt, ?_, ?_,
    List.mem_filterMap.mpr ⟨first, mem, named first isFirst⟩, ?_, rfl, named second isSecond, rfl⟩
  · rw [entries_eq, split, List.filterMap_append, List.filterMap_cons_some (named second isSecond)]
  · exact (names_tableOf file before).symm ▸ distinct
  · rfl

/-- The table of a file is made if the keys of its entries differ, and only then. It lists the
entries in order, and a key means its entry. Otherwise the failure stands at the first entry whose
key is that of an earlier one, and its note at the earlier one. -/
theorem createSymbols_exact (file : SourceFile) (name : String) :
    ((file.createSymbols name).isOk ↔ (file.entries.map (·.name)).Nodup) ∧
    (∀ table, file.createSymbols name = .ok table →
      table.symbols = file.entries ∧
      (∀ entry ∈ file.entries, table.lookup entry.name = some entry) ∧
      ∀ key, key ∉ file.entries.map (·.name) → table.lookup key = none) ∧
    ∀ failure, file.createSymbols name = .error failure →
      ∃ before earlier entry after, file.entries = before ++ entry :: after ∧
        (before.map (·.name)).Nodup ∧ earlier ∈ before ∧ earlier.name = entry.name ∧
        failure = .naming name entry.position s!"`{entry.name}` redeclared in this block"
          (some (entry.clashHelp earlier.position)) := by
  refine ⟨by rw [createSymbols_isOk, names_entries], fun table made => ⟨?_, ?_, ?_⟩, ?_⟩
  · rw [(createSymbols_eq_ok_iff.mp made).2, entries_eq, tableOf]
  · intro entry mem
    have distinct := (createSymbols_eq_ok_iff.mp made).1
    rw [lookup_tableOf made, find?_of_mem (by rwa [names_entries]) mem]
  · intro key missing
    rw [lookup_tableOf made, List.find?_eq_none]
    intro entry mem isKey
    exact missing (List.mem_map.mpr ⟨entry, mem, by simpa using isKey⟩)
  · intro failure failed
    obtain ⟨key, first, second, clash, rfl⟩ := createSymbols_eq_error_iff.mp failed
    obtain ⟨before, earlier, entry, after, split, distinct, mem, same, place, isEntry, rfl⟩ :=
      entries_of_clash clash
    refine ⟨before, earlier, entry, after, split, distinct, mem, same, ?_⟩
    rw [place, ofDiagnostic_clashReport isEntry]

theorem createSymbols_exact_init :
    ∃ file table clashing failure,
      Parser.parseSource "package p\nimport \"fmt\"\nfunc init()\nfunc init()\nvar x, _ int\n" =
        .ok file ∧
      file.createSymbols "t.go" = .ok table ∧ table.symbols = file.entries ∧
      file.entries.map (·.name) = ["x", "fmt"] ∧ table.lookup "init" = none ∧
      Parser.parseSource "package p\nimport \"a/x\"\nvar x int\n" = .ok clashing ∧
      clashing.createSymbols "t.go" = .error failure ∧
      ∃ before earlier entry after, clashing.entries = before ++ entry :: after ∧
        (before.map (·.name)).Nodup ∧ earlier ∈ before ∧ earlier.name = entry.name ∧
        failure = .naming "t.go" entry.position s!"`{entry.name}` redeclared in this block"
          (some (entry.clashHelp earlier.position)) := by
  obtain ⟨file, parsed, names⟩ := exists_file_with
    "package p\nimport \"fmt\"\nfunc init()\nfunc init()\nvar x, _ int\n"
    (fun file => file.entries.map (·.name)) ["x", "fmt"] (by decide +kernel)
  obtain ⟨clashing, parsedToo, repeated⟩ := exists_file_with
    "package p\nimport \"a/x\"\nvar x int\n"
    (fun file => (file.createSymbols "t.go").isOk) false (by decide +kernel)
  obtain ⟨failure, failed⟩ := exists_failure repeated
  obtain ⟨isOk, listed, -⟩ := createSymbols_exact file "t.go"
  have succeeds := isOk.mpr (by rw [names]; decide)
  cases made : file.createSymbols "t.go" with
  | error failure => simp [made, Except.isOk, Except.toBool] at succeeds
  | ok table =>
    obtain ⟨symbols, -, missing⟩ := listed table made
    exact ⟨file, table, clashing, failure, parsed, made, symbols, names,
      missing "init" (by rw [names]; decide), parsedToo, failed,
      (createSymbols_exact clashing "t.go").2.2 failure failed⟩

end SourceFile

end GoFront
