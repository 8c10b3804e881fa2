import GoFront.Symbol
import Mathlib.Data.List.Find
import Mathlib.Data.List.Nodup

/-!
The places of a file that give names, and how they fill its symbol table. Though the table has two
scopes, a name may be used once: `symbolTable_cases` says that the table lists all named sites in
order, or that the first site whose name is taken is reported with the site that has it.
-/
namespace GoFront

/-- What gives a name at the top level of a file. -/
inductive Site where
  | func (name : String)
  | method (receiver name : String)
  | grouped (kind : GroupKind) (name : String)
  | imported (i : Import)
  deriving DecidableEq, Repr

namespace Site

def kind : Site → SymbolKind
  | func _ => .declared .func
  | method _ _ => .declared .method
  | grouped kind _ => .declared (Declaration.group kind []).kind
  | imported i => .imported i.path

/-- The name under which the site enters the symbol table, if it does. -/
def key? : Site → Option String
  | func name => if name = "_" ∨ name = "init" then none else some name
  | method receiver name => some s!"{receiver}.{name}"
  | grouped _ name => if name = "_" then none else some name
  | imported i => i.localName

def isMethod : Site → Bool
  | method _ _ => true
  | _ => false

def isImport : Site → Bool
  | imported _ => true
  | _ => false

end Site

def Declaration.sites : Declaration → List (Spanned Site)
  | func name none _ => [⟨.func name.value, name.span⟩]
  | func name (some receiver) _ => [⟨.method receiver name.value, name.span⟩]
  | group kind names => names.map fun name => ⟨.grouped kind name.value, name.span⟩

/-- The report at a site that its key is taken since the first position. -/
def Spanned.clashReport (site : Spanned Site) (key : String) (first : Position) : Diagnostic :=
  let taken := Fault.diagnostic (.redeclared key first) site.span
  match site.value with
  | .imported i => taken.addHint s!"import \"{i.path}\" under a different name"
  | _ => taken

/-- The keys of the sites that have one. -/
def keysOf (sites : List (Spanned Site)) : List String := sites.filterMap (·.value.key?)

/-- The second site is the first one of the list whose key is taken, and the first has taken it. -/
structure Clash (sites : List (Spanned Site)) (key : String) (first second : Spanned Site) :
    Prop where
  place : ∃ before after, sites = before ++ second :: after ∧ first ∈ before ∧
    (keysOf before).Nodup
  first_key : first.value.key? = some key
  second_key : second.value.key? = some key

namespace SourceFile

variable (file : SourceFile)

def declaredSites : List (Spanned Site) := file.declarations.flatMap (·.value.sites)

def importedSites : List (Spanned Site) := file.imports.map fun i => ⟨.imported i.value, i.span⟩

/-- The sites of a file in the order in which they enter the table. -/
def sites : List (Spanned Site) := file.declaredSites ++ file.importedSites

def symbolAt (site : Spanned Site) : Option Symbol :=
  site.value.key?.map fun key => ⟨key, site.value.kind, site.span, file.position site.span⟩

/-- The table of the sites, one after the other. -/
def tableOf (sites : List (Spanned Site)) : SymbolTable := ⟨sites.filterMap file.symbolAt⟩

/-! ### One scope in place of two -/

/-- Enters a site into a table in which no name may be used twice, whatever its scope. -/
def enter (table : SymbolTable) (site : Spanned Site) : Except Diagnostic SymbolTable :=
  match file.symbolAt site with
  | none => .ok table
  | some symbol =>
    match table.symbols.find? (·.name = symbol.name) with
    | some first => .error (site.clashReport symbol.name first.position)
    | none => .ok ⟨table.symbols ++ [symbol]⟩

theorem toList_methodKey (receiver name : String) :
    s!"{receiver}.{name}".toList = receiver.toList ++ '.' :: name.toList := by
  change (receiver ++ "." ++ name).toList = _
  simp [String.toList_append]

theorem methodKey_ne_blank (receiver name : String) : s!"{receiver}.{name}" ≠ "_" := by
  intro same
  have dot : '.' ∈ s!"{receiver}.{name}".toList := by
    rw [toList_methodKey]
    simp
  rw [same] at dot
  simp at dot

theorem symbolAt_declared (d : Declaration) :
    d.sites.filterMap file.symbolAt =
      (d.keys.filter fun key => !Declaration.isAnonymous d.kind key.value).map
        fun key => ⟨key.value, .declared d.kind, key.span, file.position key.span⟩ := by
  cases d with
  | func name receiver hasBody =>
    cases receiver with
    | none =>
      by_cases anonymous : name.value = "_" ∨ name.value = "init"
      · have isAnonymous : Declaration.isAnonymous .func name.value := by
          simpa [Declaration.isAnonymous] using anonymous
        simp [Declaration.keys, Declaration.sites, Declaration.kind, symbolAt, Site.key?, anonymous,
          isAnonymous]
      · have isNamed : Declaration.isAnonymous .func name.value = false := by
          simpa [Declaration.isAnonymous] using anonymous
        simp [Declaration.keys, Declaration.sites, Declaration.kind, symbolAt, Site.key?, anonymous,
          isNamed, Site.kind]
    | some receiver =>
      have isNamed : Declaration.isAnonymous .method s!"{receiver}.{name.value}" = false := by
        simp [Declaration.isAnonymous, methodKey_ne_blank]
      simp [Declaration.keys, Declaration.sites, Declaration.kind, symbolAt, Site.key?, isNamed,
        Site.kind]
  | group kind names =>
    have isKind : (Declaration.group kind names).kind = (Declaration.group kind []).kind := by
      cases kind <;> rfl
    have isAnonymous : ∀ name, Declaration.isAnonymous (Declaration.group kind []).kind name =
        decide (name = "_") := by
      intro name
      cases kind <;> simp [Declaration.isAnonymous, Declaration.kind]
    rw [isKind, Declaration.keys, Declaration.sites]
    clear isKind
    induction names with
    | nil => rfl
    | cons name names ih =>
      by_cases blank : name.value = "_"
      · simpa [symbolAt, Site.key?, blank, isAnonymous] using ih
      · simpa [symbolAt, Site.key?, Site.kind, blank, isAnonymous] using ih

theorem declaredSymbols_eq :
    file.declaredSymbols = file.declaredSites.filterMap file.symbolAt := by
  rw [declaredSymbols, declaredSites, List.filterMap_flatMap]
  exact congrArg (file.declarations.flatMap ·)
    (funext fun d => (file.symbolAt_declared d.value).symm)

theorem importedSymbols_eq :
    file.importedSymbols = file.imports.filterMap fun i =>
      (file.symbolAt ⟨.imported i.value, i.span⟩).map (i.value.path, ·) := by
  refine congrArg (file.imports.filterMap ·) (funext fun i => ?_)
  rw [symbolAt, Option.map_map]
  rfl

variable {file}

theorem scope_of_declared {site : Site} (noImport : site.isImport = false) :
    site.kind.scope = .package := by
  cases site with
  | imported => simp [Site.isImport] at noImport
  | _ => rfl

theorem enter_of_none {site : Spanned Site} (unnamed : file.symbolAt site = none)
    (table : SymbolTable) : file.enter table site = .ok table := by
  rw [enter, unnamed]

theorem declare_eq_enter {table : SymbolTable} {site : Spanned Site} {symbol : Symbol}
    (declared : ∀ symbol ∈ table.symbols, symbol.kind.scope = .package)
    (noImport : site.value.isImport = false) (named : file.symbolAt site = some symbol) :
    table.declare symbol = file.enter table site := by
  have report : ∀ key first, site.clashReport key first =
      Fault.diagnostic (.redeclared key first) site.span := by
    intro key first
    unfold Spanned.clashReport
    split
    next isImport => simp [isImport, Site.isImport] at noImport
    next => rfl
  simp only [enter, named]
  obtain ⟨key, isKey, rfl⟩ := Option.map_eq_some_iff.mp named
  have found : table.find? .package key = table.symbols.find? (·.name = key) := by
    refine List.find?_congr fun other mem => ?_
    simp [declared other mem]
  simp only [SymbolTable.declare, SymbolTable.define, scope_of_declared noImport, found]
  cases table.symbols.find? (·.name = key) with
  | none => rfl
  | some first => simp only [report]

/-- In a table without repeated names it does not matter which scope is searched first. -/
theorem lookup_eq_find? {table : SymbolTable} (distinct : (table.symbols.map (·.name)).Nodup)
    (key : String) : table.lookup key = table.symbols.find? (·.name = key) := by
  obtain ⟨symbols⟩ := table
  unfold SymbolTable.lookup SymbolTable.find?
  dsimp only at distinct ⊢
  induction symbols with
  | nil => rfl
  | cons symbol later ih =>
    obtain ⟨fresh, distinctLater⟩ := List.nodup_cons.mp distinct
    by_cases named : symbol.name = key
    · have missed : ∀ scope, later.find? (fun s => s.name = key && s.kind.scope = scope) =
          none := by
        intro scope
        rw [List.find?_eq_none]
        intro other mem same
        simp only [Bool.and_eq_true, decide_eq_true_eq] at same
        exact fresh (List.mem_map.mpr ⟨other, mem, same.1.trans named.symm⟩)
      cases scope : symbol.kind.scope <;> simp [named, scope, missed]
    · simpa [named] using ih distinctLater

/-- In a list without repeated names, a symbol is what is found under its name. -/
theorem find?_of_mem {symbols : List Symbol} (distinct : (symbols.map (·.name)).Nodup)
    {symbol : Symbol} (mem : symbol ∈ symbols) :
    symbols.find? (·.name = symbol.name) = some symbol := by
  cases found : symbols.find? (·.name = symbol.name) with
  | none => simpa using List.find?_eq_none.mp found symbol mem
  | some taken =>
    have named : taken.name = symbol.name := by simpa using List.find?_some found
    rw [List.inj_on_of_nodup_map distinct (List.mem_of_find?_eq_some found) mem named]

theorem bindImport_eq_enter {table : SymbolTable} {i : Spanned Import} {symbol : Symbol}
    (distinct : (table.symbols.map (·.name)).Nodup)
    (named : file.symbolAt ⟨.imported i.value, i.span⟩ = some symbol) :
    table.bindImport i.value.path symbol = file.enter table ⟨.imported i.value, i.span⟩ := by
  simp only [enter, named]
  obtain ⟨key, isKey, rfl⟩ := Option.map_eq_some_iff.mp named
  simp only [SymbolTable.bindImport, lookup_eq_find? distinct]
  cases table.symbols.find? (·.name = key) <;> rfl

/-- Two loops agree if their steps agree in all states that the loop can reach. -/
theorem foldlM_eq_of_kept {σ α ε : Type} (kept : σ → Prop) {step other : σ → α → Except ε σ}
    {list : List α} (same : ∀ s, kept s → ∀ a ∈ list, step s a = other s a)
    (keeps : ∀ s, kept s → ∀ a ∈ list, ∀ next, other s a = .ok next → kept next) {s : σ}
    (start : kept s) : list.foldlM step s = list.foldlM other s := by
  induction list generalizing s with
  | nil => rfl
  | cons a list ih =>
    rw [List.foldlM_cons, List.foldlM_cons, same s start a List.mem_cons_self]
    cases stepped : other s a with
    | error reason => rfl
    | ok next =>
      exact ih (fun s kept b mem => same s kept b (List.mem_cons_of_mem _ mem))
        (fun s kept b mem => keeps s kept b (List.mem_cons_of_mem _ mem))
        (keeps s start a List.mem_cons_self next stepped)

/-- What a site adds to the table. -/
theorem enter_eq_ok {table next : SymbolTable} {site : Spanned Site}
    (entered : file.enter table site = .ok next) :
    next = ⟨table.symbols ++ (file.symbolAt site).toList⟩ ∧
      ∀ symbol ∈ file.symbolAt site, symbol.name ∉ table.symbols.map (·.name) := by
  unfold enter at entered
  split at entered
  next missed =>
    obtain rfl := Except.ok.inj entered
    simp [missed]
  next symbol found =>
    split at entered
    next => simp at entered
    next fresh =>
      obtain rfl := Except.ok.inj entered
      simpa [found] using fresh

theorem not_isImport_of_mem {site : Spanned Site} (mem : site ∈ file.declaredSites) :
    site.value.isImport = false := by
  obtain ⟨⟨d, span⟩, -, isSite⟩ := List.mem_flatMap.mp mem
  cases d with
  | func name receiver =>
    cases receiver <;> simp_all [Declaration.sites, Site.isImport]
  | group =>
    obtain ⟨name, -, rfl⟩ := List.mem_map.mp isSite
    rfl

theorem keysOf_nil_nodup : (keysOf []).Nodup := .nil

theorem names_tableOf (file : SourceFile) (sites : List (Spanned Site)) :
    (file.tableOf sites).symbols.map (·.name) = keysOf sites := by
  rw [tableOf, keysOf, List.map_filterMap]
  refine congrArg (sites.filterMap ·) (funext fun site => ?_)
  rw [symbolAt, Option.map_map]
  exact Option.map_id'

/-- A site enters the table of the sites before it, unless one of them has its key. -/
theorem enter_cases (file : SourceFile) {before : List (Spanned Site)}
    (distinct : (keysOf before).Nodup) (site : Spanned Site) :
    (keysOf (before ++ [site])).Nodup ∧
        file.enter (file.tableOf before) site = .ok (file.tableOf (before ++ [site])) ∨
      ∃ key first, Clash (before ++ [site]) key first site ∧
        file.enter (file.tableOf before) site =
          .error (site.clashReport key (file.position first.span)) := by
  unfold enter
  cases hasKey : site.value.key? with
  | none =>
    left
    simpa [keysOf, tableOf, symbolAt, hasKey] using distinct
  | some key =>
    simp only [symbolAt, hasKey, Option.map_some]
    cases found : (file.tableOf before).symbols.find? (·.name = key) with
    | none =>
      left
      have fresh : key ∉ keysOf before := by
        rw [← names_tableOf file]
        simpa using found
      refine ⟨?_, by simp [tableOf, symbolAt, hasKey]⟩
      rw [keysOf, List.filterMap_append, List.nodup_append]
      refine ⟨distinct, by simp [hasKey], fun other mem key' isKey => ?_⟩
      obtain rfl : key' = key := by simpa [hasKey] using isKey
      exact fun same => fresh (same ▸ mem)
    | some taken =>
      have named : taken.name = key := by simpa using List.find?_some found
      obtain ⟨first, mem, isTaken⟩ := List.mem_filterMap.mp (List.mem_of_find?_eq_some found)
      obtain ⟨key', isKey, rfl⟩ := Option.map_eq_some_iff.mp isTaken
      obtain rfl : key' = key := named
      exact .inr ⟨key', first, ⟨⟨before, [], rfl, mem, distinct⟩, isKey, hasKey⟩, rfl⟩

theorem foldlM_enter_cases (file : SourceFile) {before : List (Spanned Site)}
    (distinct : (keysOf before).Nodup) (later : List (Spanned Site)) :
    (keysOf (before ++ later)).Nodup ∧
        later.foldlM file.enter (file.tableOf before) = .ok (file.tableOf (before ++ later)) ∨
      ∃ key first second, Clash (before ++ later) key first second ∧
        later.foldlM file.enter (file.tableOf before) =
          .error (second.clashReport key (file.position first.span)) := by
  induction later generalizing before with
  | nil => exact .inl ⟨by simpa using distinct, by simp [pure, Except.pure]⟩
  | cons site later ih =>
    rw [List.append_cons, List.foldlM_cons]
    rcases file.enter_cases distinct site with ⟨distinctNow, entered⟩ | ⟨key, first, clash, refused⟩
    · rw [entered]
      exact ih distinctNow
    · obtain ⟨⟨front, back, split, mem, distinctFront⟩, isFirst, isSite⟩ := clash
      refine .inr ⟨key, first, site, ⟨⟨front, back ++ later, ?_, mem, distinctFront⟩, isFirst,
        isSite⟩, by rw [refused]; rfl⟩
      rw [split, List.append_assoc, List.cons_append]

/-- The symbol table is filled as if it had one scope. -/
theorem symbolTable_eq_foldlM (file : SourceFile) :
    file.symbolTable = file.sites.foldlM file.enter (file.tableOf []) := by
  have declared : file.declaredSymbols.foldlM SymbolTable.declare {} =
      file.declaredSites.foldlM file.enter (file.tableOf []) := by
    rw [declaredSymbols_eq, List.foldlM_filterMap]
    refine foldlM_eq_of_kept
      (fun table => ∀ symbol ∈ table.symbols, symbol.kind.scope = .package) ?_ ?_ (by simp)
    · intro table kept site mem
      cases named : file.symbolAt site with
      | none => exact (enter_of_none named table).symm
      | some symbol => exact declare_eq_enter kept (not_isImport_of_mem mem) named
    · intro table kept site mem next entered symbol isSymbol
      obtain ⟨rfl, -⟩ := enter_eq_ok entered
      rcases List.mem_append.mp isSymbol with old | new
      · exact kept symbol old
      · obtain ⟨key, -, rfl⟩ := Option.map_eq_some_iff.mp (Option.mem_toList.mp new)
        exact scope_of_declared (not_isImport_of_mem mem)
  have imported : ∀ table : SymbolTable, (table.symbols.map (·.name)).Nodup →
      file.importedSymbols.foldlM (fun table binding => table.bindImport binding.1 binding.2) table =
        file.importedSites.foldlM file.enter table := by
    intro table distinct
    rw [importedSymbols_eq, List.foldlM_filterMap, importedSites, List.foldlM_map]
    refine foldlM_eq_of_kept (fun table => (table.symbols.map (·.name)).Nodup) ?_ ?_ distinct
    · intro table distinct i _
      cases named : file.symbolAt ⟨.imported i.value, i.span⟩ with
      | none => exact (enter_of_none named table).symm
      | some symbol => exact bindImport_eq_enter distinct named
    · intro table distinct i _ next entered
      obtain ⟨rfl, fresh⟩ := enter_eq_ok entered
      cases named : file.symbolAt ⟨.imported i.value, i.span⟩ with
      | none => simpa using distinct
      | some symbol =>
        have isFresh := fresh symbol named
        simp only [Option.toList_some, List.map_append, List.map_cons, List.map_nil]
        exact List.nodup_append.mpr ⟨distinct, by simp, by simpa using isFresh⟩
  rw [sites, List.foldlM_append, symbolTable, declared]
  rcases file.foldlM_enter_cases keysOf_nil_nodup file.declaredSites with
    ⟨distinct, entered⟩ | ⟨key, first, second, -, refused⟩
  · rw [entered]
    exact imported _ (by rwa [names_tableOf])
  · rw [refused]
    rfl

/-- The table lists the named sites of the file in order, or the first of them whose key is taken is
reported. -/
theorem symbolTable_cases (file : SourceFile) :
    (keysOf file.sites).Nodup ∧ file.symbolTable = .ok (file.tableOf file.sites) ∨
      ∃ key first second, Clash file.sites key first second ∧
        file.symbolTable = .error (second.clashReport key (file.position first.span)) := by
  rw [symbolTable_eq_foldlM]
  exact file.foldlM_enter_cases keysOf_nil_nodup file.sites

theorem not_nodup_of_clash {sites : List (Spanned Site)} {key : String}
    {first second : Spanned Site} (clash : Clash sites key first second) :
    ¬(keysOf sites).Nodup := by
  obtain ⟨⟨before, after, rfl, mem, -⟩, isFirst, isSecond⟩ := clash
  intro distinct
  rw [keysOf, List.filterMap_append, List.nodup_append] at distinct
  exact distinct.2.2 key (List.mem_filterMap.mpr ⟨first, mem, isFirst⟩) key
    (List.mem_filterMap.mpr ⟨second, List.mem_cons_self, isSecond⟩) rfl

/-- A clash determines the report. -/
theorem symbolTable_of_clash {key : String} {first second : Spanned Site}
    (clash : Clash file.sites key first second) :
    file.symbolTable = .error (second.clashReport key (file.position first.span)) := by
  obtain ⟨⟨before, after, split, mem, distinct⟩, isFirst, isSecond⟩ := clash
  have entered : before.foldlM file.enter (file.tableOf []) = .ok (file.tableOf before) := by
    rcases file.foldlM_enter_cases keysOf_nil_nodup before with
      ⟨-, entered⟩ | ⟨_, _, _, clash, -⟩
    · exact entered
    · exact absurd distinct (not_nodup_of_clash clash)
  have isSymbol : file.symbolAt first =
      some ⟨key, first.value.kind, first.span, file.position first.span⟩ := by
    rw [symbolAt, isFirst, Option.map_some]
  have inTable := List.mem_filterMap.mpr ⟨first, mem, isSymbol⟩
  have found : (file.tableOf before).symbols.find? (·.name = key) =
      some ⟨key, first.value.kind, first.span, file.position first.span⟩ := by
    rw [← names_tableOf file] at distinct
    exact find?_of_mem distinct inTable
  rw [symbolTable_eq_foldlM, split, List.foldlM_append, entered]
  change (file.enter (file.tableOf before) second >>= _) = _
  simp only [enter, symbolAt, isSecond, Option.map_some, found]
  rfl

theorem createSymbols_eq_ok_iff {name : String} {table : SymbolTable} :
    file.createSymbols name = .ok table ↔
      (keysOf file.sites).Nodup ∧ table = file.tableOf file.sites := by
  unfold createSymbols
  rcases symbolTable_cases file with ⟨distinct, made⟩ | ⟨key, first, second, clash, refused⟩
  · simp [made, distinct, eq_comm]
  · simp [refused, not_nodup_of_clash clash]

theorem createSymbols_isOk {name : String} :
    (file.createSymbols name).isOk ↔ (keysOf file.sites).Nodup := by
  cases made : file.createSymbols name with
  | ok table => simpa [Except.isOk, Except.toBool] using (createSymbols_eq_ok_iff.mp made).1
  | error failure =>
    have repeated : ¬(keysOf file.sites).Nodup := by
      intro distinct
      have isOk : file.createSymbols name = .ok _ := createSymbols_eq_ok_iff.mpr ⟨distinct, rfl⟩
      simp [made] at isOk
    simpa [Except.isOk, Except.toBool] using repeated

/-- The only failure is the report of a clash. -/
theorem createSymbols_eq_error_iff {name : String} {failure : Failure} :
    file.createSymbols name = .error failure ↔
      ∃ key first second, Clash file.sites key first second ∧
        failure = .ofDiagnostic name file.lines
          (second.clashReport key (file.position first.span)) := by
  unfold createSymbols
  constructor
  · intro failed
    rcases symbolTable_cases file with ⟨-, made⟩ | ⟨key, first, second, clash, refused⟩
    · simp [made] at failed
    · rw [refused] at failed
      exact ⟨key, first, second, clash, (Except.error.inj failed).symm⟩
  · rintro ⟨key, first, second, clash, rfl⟩
    rw [symbolTable_of_clash clash]

end SourceFile

end GoFront
