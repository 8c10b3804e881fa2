import GoFront.Proofs.Parser.RoundTrip
import GoFront.Proofs.Symbol.Site

/-!
Methods and the names they clash with. A method is entered under its type and its name with a dot
between them, which no declaration of another kind can have for its name. An import can: the last
element of its path may hold dots.
-/
namespace GoFront

def Site.wellFormed : Site → Bool
  | func name => isIdentifier name
  | method receiver name => isIdentifier receiver && isIdentifier name
  | grouped _ name => isIdentifier name
  | imported i => i.wellFormed

theorem Declaration.sites_wellFormed {d : Declaration} (wellFormed : d.entry.wellFormed) :
    ∀ site ∈ d.sites, site.value.wellFormed := by
  cases d with
  | func name receiver hasBody =>
    cases receiver with
    | none => simpa [sites, entry, Outline.Entry.wellFormed, Site.wellFormed] using wellFormed
    | some receiver =>
      simpa [sites, entry, Outline.Entry.wellFormed, Site.wellFormed, and_comm] using wellFormed
  | group kind names =>
    simpa [sites, entry, Outline.Entry.wellFormed, Site.wellFormed] using wellFormed

theorem SourceFile.sites_wellFormed {file : SourceFile} (wellFormed : file.outline.wellFormed) :
    ∀ site ∈ file.sites, site.value.wellFormed := by
  simp only [outline, Outline.wellFormed, Bool.and_eq_true, List.all_map, List.all_eq_true]
    at wellFormed
  obtain ⟨⟨-, imports⟩, declarations⟩ := wellFormed
  intro site mem
  rcases List.mem_append.mp mem with declared | imported
  · obtain ⟨d, isDeclaration, isSite⟩ := List.mem_flatMap.mp declared
    exact Declaration.sites_wellFormed (declarations d isDeclaration) site isSite
  · obtain ⟨i, isImport, rfl⟩ := List.mem_map.mp imported
    exact imports i isImport

theorem dot_not_mem_of_isIdentifier {name : String} (identifier : isIdentifier name) :
    '.' ∉ name.toList := by
  obtain ⟨c, rest, isName, start, run, -⟩ := Lexer.word_of_identifier identifier
  have word : ∀ d ∈ name.toList, Lexer.isWordChar d := by
    rw [isName]
    exact List.forall_mem_cons.mpr ⟨Lexer.isWordChar_of_isWordStart start, run⟩
  exact fun mem => absurd (word '.' mem) (by decide)

namespace Site

theorem methodKey_inj {receiver name other method : String} (typeWord : isIdentifier receiver)
    (nameWord : isIdentifier name) (same : s!"{other}.{method}" = s!"{receiver}.{name}") :
    other = receiver ∧ method = name := by
  have split := congrArg String.toList same
  rw [SourceFile.toList_methodKey, SourceFile.toList_methodKey, eq_comm,
    List.append_cons_inj_of_notMem (dot_not_mem_of_isIdentifier typeWord)
      (dot_not_mem_of_isIdentifier nameWord)] at split
  exact ⟨(String.toList_inj.mp split.1).symm, (String.toList_inj.mp split.2.2).symm⟩

/-- Of the sites that are no methods, only an import without a name of its own has a dot in its
key. -/
theorem dot_not_mem_key {site : Site} {key : String} (wellFormed : site.wellFormed)
    (noMethod : site.isMethod = false) (isKey : site.key? = some key) :
    '.' ∉ key.toList ∨
      ∃ path, site = .imported ⟨path, .default⟩ ∧ Import.lastElement path.toList = key.toList := by
  cases site with
  | func name =>
    simp only [key?, Option.ite_none_left_eq_some, Option.some.injEq] at isKey
    exact .inl (dot_not_mem_of_isIdentifier (isKey.2 ▸ wellFormed))
  | method => simp [isMethod] at noMethod
  | grouped kind name =>
    simp only [key?, Option.ite_none_left_eq_some, Option.some.injEq] at isKey
    exact .inl (dot_not_mem_of_isIdentifier (isKey.2 ▸ wellFormed))
  | imported i =>
    obtain ⟨path, binding⟩ := i
    cases binding with
    | default =>
      refine .inr ⟨path, rfl, ?_⟩
      simp only [key?, Import.localName] at isKey
      split at isKey
      next => simp at isKey
      next => rw [← Option.some.inj isKey, String.toList_ofList]
    | named name =>
      obtain rfl : name = key := by simpa [key?, Import.localName] using isKey
      simp only [Site.wellFormed, Import.wellFormed, Bool.and_eq_true] at wellFormed
      exact .inl (dot_not_mem_of_isIdentifier wellFormed.2.1)
    | dot => simp [key?, Import.localName] at isKey
    | blank => simp [key?, Import.localName] at isKey

theorem eq_method {site : Site} {key : String} (isMethod : site.isMethod)
    (isKey : site.key? = some key) :
    ∃ receiver name, site = .method receiver name ∧ key = s!"{receiver}.{name}" := by
  cases site with
  | method receiver name => exact ⟨receiver, name, rfl, (Option.some.inj isKey).symm⟩
  | _ => simp [Site.isMethod] at isMethod

/-- What can have the key of a method: the same method, or an import behind it. -/
theorem clash_of_method {first second : Site} {key : String} (wellFormed : first.wellFormed)
    (wellFormedSecond : second.wellFormed) (importsLast : first.isImport → second.isImport)
    (isFirst : first.key? = some key) (isSecond : second.key? = some key)
    (hasMethod : first.isMethod ∨ second.isMethod) :
    ∃ receiver name, first = .method receiver name ∧
      (second = .method receiver name ∨ ∃ path, second = .imported ⟨path, .default⟩ ∧
        Import.lastElement path.toList = s!"{receiver}.{name}".toList) := by
  have dotted : '.' ∈ key.toList := by
    have spelled : ∃ receiver name : String, key = s!"{receiver}.{name}" := by
      rcases hasMethod with isMethod | isMethod
      · obtain ⟨receiver, name, -, isKey⟩ := eq_method isMethod isFirst
        exact ⟨receiver, name, isKey⟩
      · obtain ⟨receiver, name, -, isKey⟩ := eq_method isMethod isSecond
        exact ⟨receiver, name, isKey⟩
    obtain ⟨receiver, name, rfl⟩ := spelled
    rw [SourceFile.toList_methodKey]
    simp
  cases isMethod : first.isMethod with
  | false =>
    -- The second site is the method, so the first would be an import in front of it.
    obtain ⟨receiver, name, rfl, -⟩ :=
      eq_method (hasMethod.resolve_left (by simp [isMethod])) isSecond
    rcases dot_not_mem_key wellFormed isMethod isFirst with noDot | ⟨path, rfl, -⟩
    · exact absurd dotted noDot
    · exact absurd (importsLast rfl) (by simp [isImport])
  | true =>
    obtain ⟨receiver, name, rfl, rfl⟩ := eq_method isMethod isFirst
    refine ⟨receiver, name, rfl, ?_⟩
    cases isMethodToo : second.isMethod with
    | true =>
      obtain ⟨other, method, rfl, same⟩ := eq_method isMethodToo isSecond
      simp only [Site.wellFormed, Bool.and_eq_true] at wellFormedSecond
      obtain ⟨rfl, rfl⟩ := methodKey_inj wellFormedSecond.1 wellFormedSecond.2 same
      exact .inl rfl
    | false =>
      exact .inr ((dot_not_mem_key wellFormedSecond isMethodToo isSecond).resolve_left
        (not_not.mpr dotted))

end Site

namespace SourceFile

variable {file : SourceFile}

/-- Behind an import stand only imports. -/
theorem pairwise_importsLast (file : SourceFile) :
    file.sites.Pairwise fun earlier later => earlier.value.isImport → later.value.isImport := by
  have imported : ∀ site ∈ file.importedSites, site.value.isImport := by
    intro site mem
    obtain ⟨i, -, rfl⟩ := List.mem_map.mp mem
    rfl
  rw [sites, List.pairwise_append]
  refine ⟨?_, ?_, ?_⟩
  · refine List.pairwise_of_forall_mem_list fun site mem _ _ isImport => ?_
    simp [not_isImport_of_mem mem] at isImport
  · exact List.pairwise_of_forall_mem_list fun _ _ later mem _ => imported later mem
  · exact fun _ _ later mem _ => imported later mem

theorem importsLast_of_clash {key : String} {first second : Spanned Site}
    (clash : Clash file.sites key first second) :
    first.value.isImport → second.value.isImport := by
  obtain ⟨before, after, split, mem, -⟩ := clash.place
  have ordered := file.pairwise_importsLast
  rw [split, List.pairwise_append] at ordered
  exact ordered.2.2 first mem second List.mem_cons_self

/-- The symbols of an accepted source text fail for a clash only. A method clashes with the same
method of the same type, or with an import without a name of its own whose path ends in the type and
the method, and with nothing else. -/
theorem createSymbols_method_clash {source : String}
    (parsed : Parser.parseSource source = .ok file) {name : String} {failure : Failure}
    (failed : file.createSymbols name = .error failure) :
    (∃ key first second, Clash file.sites key first second ∧
      failure = .ofDiagnostic name file.lines
        (second.clashReport key (file.position first.span))) ∧
    ∀ key first second, Clash file.sites key first second →
      first.value.isMethod ∨ second.value.isMethod →
      ∃ receiver method, first.value = .method receiver method ∧
        (second.value = .method receiver method ∨
          ∃ path, second.value = .imported ⟨path, .default⟩ ∧
            Import.lastElement path.toList = s!"{receiver}.{method}".toList) := by
  refine ⟨createSymbols_eq_error_iff.mp failed, fun key first second clash hasMethod => ?_⟩
  have wellFormed := sites_wellFormed (Parser.wellFormed_outline parsed)
  obtain ⟨before, after, split, mem, -⟩ := clash.place
  rw [split] at wellFormed
  exact Site.clash_of_method (wellFormed first (List.mem_append_left _ mem))
    (wellFormed second (List.mem_append_right _ List.mem_cons_self)) (importsLast_of_clash clash)
    clash.first_key clash.second_key hasMethod

theorem exists_file_with (source : String) {α : Type} (view : SourceFile → α) (seen : α)
    (viewed : (Parser.parseSource source).toOption.map view = some seen) :
    ∃ file, Parser.parseSource source = .ok file ∧ view file = seen := by
  cases parsed : Parser.parseSource source with
  | error found => simp [parsed, Except.toOption] at viewed
  | ok file =>
    rw [parsed] at viewed
    exact ⟨file, rfl, Option.some.inj viewed⟩

theorem exists_failure {name : String} (refused : (file.createSymbols name).isOk = false) :
    ∃ failure, file.createSymbols name = .error failure := by
  cases made : file.createSymbols name with
  | error failure => exact ⟨failure, rfl⟩
  | ok table => simp [made, Except.isOk, Except.toBool] at refused

theorem createSymbols_method_clash_pointer :
    ∃ file failure, Parser.parseSource "package p\nfunc (t T) M()\nfunc (t *T) M()\n" = .ok file ∧
      file.createSymbols "t.go" = .error failure ∧
      (∃ key first second, Clash file.sites key first second ∧
        failure = .ofDiagnostic "t.go" file.lines
          (second.clashReport key (file.position first.span))) ∧
      ∀ key first second, Clash file.sites key first second →
        first.value.isMethod ∨ second.value.isMethod →
        ∃ receiver method, first.value = .method receiver method ∧
          (second.value = .method receiver method ∨
            ∃ path, second.value = .imported ⟨path, .default⟩ ∧
              Import.lastElement path.toList = s!"{receiver}.{method}".toList) := by
  obtain ⟨file, parsed, refused⟩ := exists_file_with "package p\nfunc (t T) M()\nfunc (t *T) M()\n"
    (fun file => (file.createSymbols "t.go").isOk) false (by decide +kernel)
  obtain ⟨failure, failed⟩ := exists_failure refused
  exact ⟨file, failure, parsed, failed, createSymbols_method_clash parsed failed⟩

/-- The last element of an import path can spell a method, and then the two clash. -/
theorem method_clashes_with_import :
    ∃ file first second,
      Parser.parseSource "package p\nimport \"x/T.M\"\nfunc (t T) M()\n" = .ok file ∧
      Clash file.sites "T.M" first second ∧
      file.createSymbols "t.go" = .error (.ofDiagnostic "t.go" file.lines
        (second.clashReport "T.M" (file.position first.span))) ∧
      first.value = .method "T" "M" ∧ second.value = .imported ⟨"x/T.M", .default⟩ := by
  obtain ⟨file, parsed, isSites⟩ := exists_file_with
    "package p\nimport \"x/T.M\"\nfunc (t T) M()\n" sites
    [⟨.method "T" "M", ⟨36, 37⟩⟩, ⟨.imported ⟨"x/T.M", .default⟩, ⟨17, 24⟩⟩] (by decide +kernel)
  have clash : Clash file.sites "T.M" ⟨.method "T" "M", ⟨36, 37⟩⟩
      ⟨.imported ⟨"x/T.M", .default⟩, ⟨17, 24⟩⟩ :=
    ⟨⟨_, [], isSites, List.mem_singleton_self _, by decide⟩, by decide, by decide⟩
  exact ⟨file, _, _, parsed, clash, createSymbols_eq_error_iff.mpr ⟨_, _, _, clash, rfl⟩, rfl, rfl⟩

end SourceFile

end GoFront
