import GoFront.Proofs.Symbol.Methods

/-!
The underscore as a name. It declares nothing but in two places: a method of that name is entered
under its type, and an import without a name of its own is entered under the last element of its
path. All other sites of that name have no effect.
-/
namespace GoFront

namespace Site

/-- The name at the site is the underscore. -/
def isBlank : Site → Bool
  | func name => name = "_"
  | method _ name => name = "_"
  | grouped _ name => name = "_"
  | imported i => i.binding = .blank || i.localName = some "_"

/-- The site has the underscore for a name and is entered all the same. -/
def isBlankEntry : Site → Bool
  | method _ name => name = "_"
  | imported i => i.localName = some "_"
  | func _ | grouped _ _ => false

theorem isSome_key?_of_isBlank {site : Site} (blank : site.isBlank) :
    site.key?.isSome = site.isBlankEntry := by
  cases site with
  | func name => simp_all [isBlank, key?, isBlankEntry]
  | method receiver name => simpa [isBlank, key?, isBlankEntry] using blank
  | grouped kind name => simp_all [isBlank, key?, isBlankEntry]
  | imported i =>
    simp only [isBlank, Bool.or_eq_true, decide_eq_true_eq] at blank
    rcases blank with unnamed | named
    · simp [key?, isBlankEntry, Import.localName, unnamed]
    · simp [key?, isBlankEntry, named]

theorem localName_eq_blank {i : Import} (wellFormed : i.wellFormed)
    (named : i.localName = some "_") :
    i.binding = .default ∧ Import.lastElement i.path.toList = ['_'] := by
  obtain ⟨path, binding⟩ := i
  cases binding with
  | default =>
    simp only [Import.localName] at named
    split at named
    next => simp at named
    next element =>
      have isLast := congrArg String.toList (Option.some.inj named)
      rw [String.toList_ofList] at isLast
      exact ⟨rfl, isLast⟩
  | named name =>
    obtain rfl : name = "_" := by simpa [Import.localName] using named
    simp [Import.wellFormed] at wellFormed
  | dot => simp [Import.localName] at named
  | blank => simp [Import.localName] at named

theorem isBlankEntry_iff {site : Site} (wellFormed : site.wellFormed) :
    site.isBlankEntry ↔ (∃ receiver, site = .method receiver "_") ∨
      ∃ path, site = .imported ⟨path, .default⟩ ∧ Import.lastElement path.toList = ['_'] := by
  cases site with
  | imported i =>
    obtain ⟨path, binding⟩ := i
    constructor
    · intro entry
      have named : Import.localName ⟨path, binding⟩ = some "_" := by
        simpa [isBlankEntry] using entry
      obtain ⟨isDefault, isLast⟩ := localName_eq_blank wellFormed named
      obtain rfl : binding = .default := isDefault
      exact .inr ⟨path, rfl, isLast⟩
    · rintro (⟨_, same⟩ | ⟨path, same, isLast⟩)
      · simp at same
      · obtain ⟨rfl, rfl⟩ := by simpa using same
        simp [isBlankEntry, Import.localName, isLast]
  | _ => simp [isBlankEntry]

end Site

namespace SourceFile

variable {file : SourceFile}

/-- The names of the file, less the underscores that have no effect. -/
def effectiveSites (file : SourceFile) : List Site :=
  (file.sites.map (·.value)).filter fun site => !site.isBlank || site.isBlankEntry

theorem keysOf_sites (file : SourceFile) :
    keysOf file.sites = file.effectiveSites.filterMap Site.key? := by
  rw [effectiveSites, List.filterMap_filter, List.filterMap_map, keysOf]
  refine List.filterMap_congr fun site _ => ?_
  cases blank : site.value.isBlank with
  | false => simp [blank]
  | true =>
    have entered := Site.isSome_key?_of_isBlank blank
    cases entry : site.value.isBlankEntry with
    | false => simp_all
    | true => simp [entry]

/-- In the symbol table of an accepted source text, a site named by the underscore is a method, or
it is an import without a name of its own, and each such site is there. Sites of that name and of
other kinds may be added and removed without an effect on whether there is a table. -/
theorem createSymbols_blank {source : String} (parsed : Parser.parseSource source = .ok file) :
    (∀ name table, file.createSymbols name = .ok table →
      table.symbols = file.sites.filterMap file.symbolAt) ∧
    (∀ site ∈ file.sites, site.value.isBlank →
      ((file.symbolAt site).isSome ↔ (∃ receiver, site.value = .method receiver "_") ∨
        ∃ path, site.value = .imported ⟨path, .default⟩ ∧
          Import.lastElement path.toList = ['_'])) ∧
    ∀ other : SourceFile, other.effectiveSites = file.effectiveSites → ∀ name otherName,
      (other.createSymbols otherName).isOk = (file.createSymbols name).isOk := by
  refine ⟨fun name table made => ?_, fun site mem blank => ?_, fun other same name otherName => ?_⟩
  · rw [(createSymbols_eq_ok_iff.mp made).2, tableOf]
  · have wellFormed := sites_wellFormed (Parser.wellFormed_outline parsed) site mem
    rw [← Site.isBlankEntry_iff wellFormed, ← Site.isSome_key?_of_isBlank blank, symbolAt,
      Option.isSome_map]
  · rw [Bool.eq_iff_iff, createSymbols_isOk, createSymbols_isOk, keysOf_sites, keysOf_sites, same]

theorem createSymbols_blank_names :
    ∃ file other table,
      Parser.parseSource "package p\nimport _ \"os\"\nvar _, a = 1, 2\nfunc (t T) _()\n" =
        .ok file ∧
      Parser.parseSource "package p\nvar a = 2\nfunc _()\nfunc (t T) _()\n" = .ok other ∧
      other.effectiveSites = file.effectiveSites ∧
      file.createSymbols "t.go" = .ok table ∧
      table.symbols = file.sites.filterMap file.symbolAt ∧
      (∃ site ∈ file.sites, site.value.isBlank ∧
        ((file.symbolAt site).isSome ↔ (∃ receiver, site.value = .method receiver "_") ∨
          ∃ path, site.value = .imported ⟨path, .default⟩ ∧
            Import.lastElement path.toList = ['_'])) ∧
      (other.createSymbols "u.go").isOk = (file.createSymbols "t.go").isOk := by
  obtain ⟨file, parsed, seen⟩ := exists_file_with
    "package p\nimport _ \"os\"\nvar _, a = 1, 2\nfunc (t T) _()\n"
    (fun file => (file.effectiveSites, file.sites.any (·.value.isBlank),
      (file.createSymbols "t.go").isOk))
    ([.grouped .var "a", .method "T" "_"], true, true) (by decide +kernel)
  obtain ⟨other, parsedOther, effective⟩ := exists_file_with
    "package p\nvar a = 2\nfunc _()\nfunc (t T) _()\n" effectiveSites
    [.grouped .var "a", .method "T" "_"] (by decide +kernel)
  simp only [Prod.mk.injEq, List.any_eq_true] at seen
  obtain ⟨isEffective, ⟨site, mem, blank⟩, isOk⟩ := seen
  obtain ⟨listed, entered, unaffected⟩ := createSymbols_blank parsed
  have same := effective.trans isEffective.symm
  have made : file.createSymbols "t.go" = .ok (file.tableOf file.sites) :=
    createSymbols_eq_ok_iff.mpr ⟨createSymbols_isOk.mp isOk, rfl⟩
  exact ⟨file, other, _, parsed, parsedOther, same, made, listed _ _ made,
    ⟨site, mem, blank, entered site mem blank⟩, unaffected other same _ _⟩

/-- Two methods named by the underscore clash, and one of them is in the table. -/
theorem blank_methods_clash :
    ∃ one two table failure,
      Parser.parseSource "package p\nfunc (t T) _()\n" = .ok one ∧
      one.createSymbols "t.go" = .ok table ∧ table.symbols.map (·.name) = ["T._"] ∧
      Parser.parseSource "package p\nfunc (t T) _()\nfunc (t T) _()\n" = .ok two ∧
      two.createSymbols "t.go" = .error failure := by
  obtain ⟨one, parsed, seen⟩ := exists_file_with "package p\nfunc (t T) _()\n"
    (fun file => (file.createSymbols "t.go").toOption.map (·.symbols.map (·.name)))
    (some ["T._"]) (by decide +kernel)
  obtain ⟨two, parsedTwo, refused⟩ := exists_file_with
    "package p\nfunc (t T) _()\nfunc (t T) _()\n" (fun file => (file.createSymbols "t.go").isOk)
    false (by decide +kernel)
  obtain ⟨failure, failed⟩ := exists_failure refused
  cases made : one.createSymbols "t.go" with
  | error failure => simp [made, Except.toOption] at seen
  | ok table =>
    have names : table.symbols.map (·.name) = ["T._"] := by simpa [made, Except.toOption] using seen
    exact ⟨one, two, table, failure, parsed, made, names, parsedTwo, failed⟩

end SourceFile

end GoFront
