import GoFront.Symbol.Index
import Mathlib.Data.List.Basic
import Mathlib.Data.List.Nodup

/-!
Sequences of definitions in a symbol table. The index keeps to one invariant: a name leads, in each
scope, to the place of the symbol that has it there. So the indexed table answers as the list of
symbols does, numbers count the definitions that succeed, and a name is refused if an earlier
definition took it in the same scope.
-/
namespace GoFront

namespace Symbol

/-- The symbols have one name in one scope. -/
def Rivals (a b : Symbol) : Prop := a.name = b.name ∧ a.kind.scope = b.kind.scope

def key (symbol : Symbol) : Scope × String := (symbol.kind.scope, symbol.name)

theorem rivals_iff {a b : Symbol} : a.Rivals b ↔ a.key = b.key := by
  simp [Rivals, key, and_comm]

/-- The symbol has the name in the scope. -/
def isNamed (scope : Scope) (name : String) (symbol : Symbol) : Bool :=
  symbol.name = name && symbol.kind.scope = scope

theorem isNamed_iff {scope : Scope} {name : String} {symbol : Symbol} :
    symbol.isNamed scope name = true ↔ symbol.key = (scope, name) := by
  simp [isNamed, key, and_comm]

end Symbol

theorem SymbolTable.find?_eq (symbols : List Symbol) (scope : Scope) (name : String) :
    (⟨symbols⟩ : SymbolTable).find? scope name = symbols.find? (·.isNamed scope name) := rfl

namespace SymbolIndex

variable {index : SymbolIndex} {symbol : Symbol}

/-- Each name leads to the first symbol that has it in the scope, and no other symbol has it. -/
structure Sound (index : SymbolIndex) : Prop where
  places : ∀ scope name,
    (index.places scope).get? name = index.symbols.findIdx? (·.isNamed scope name)
  distinct : (index.symbols.map Symbol.key).Nodup

theorem sound_empty : Sound {} := by
  refine ⟨fun scope name => ?_, .nil⟩
  cases scope <;> rfl

theorem getElem?_findIdx? {α : Type} (p : α → Bool) (list : List α) :
    (list.findIdx? p).bind (list[·]?) = list.find? p := by
  induction list with
  | nil => rfl
  | cons first later ih =>
    rw [List.findIdx?_cons, List.find?_cons]
    cases p first with
    | true => rfl
    | false => simpa [Option.bind_map, Function.comp_def] using ih

/-- What a name leads to is what a search of the symbols finds. -/
theorem Sound.leads (sound : Sound index) (scope : Scope) (name : String) :
    ((index.places scope).get? name).bind (index.symbols[·]?) =
      index.symbols.find? (·.isNamed scope name) := by
  rw [sound.places, getElem?_findIdx?]

theorem places_add (scope : Scope) :
    (index.add symbol).places scope =
      if scope = symbol.kind.scope then
        (index.places scope).set symbol.name index.symbols.length
      else index.places scope := by
  unfold add
  cases symbol.kind.scope <;> cases scope <;> rfl

theorem symbols_add : (index.add symbol).symbols = index.symbols ++ [symbol] := by
  unfold add
  cases symbol.kind.scope <;> rfl

/-- The key is not taken: no symbol of the table has it. -/
theorem Sound.add (sound : Sound index) (fresh : symbol.key ∉ index.symbols.map Symbol.key) :
    Sound (index.add symbol) := by
  constructor
  · intro scope name
    rw [places_add, symbols_add, List.findIdx?_append, List.findIdx?_singleton]
    by_cases isKey : symbol.key = (scope, name)
    · have missing : index.symbols.findIdx? (·.isNamed scope name) = none := by
        refine List.findIdx?_eq_none_iff.mpr fun other mem => Bool.eq_false_iff.mpr fun named => ?_
        exact fresh (List.mem_map.mpr ⟨other, mem, (Symbol.isNamed_iff.mp named).trans isKey.symm⟩)
      obtain ⟨rfl, rfl⟩ := Prod.mk.inj isKey
      rw [if_pos rfl, Table.get?_set, if_pos rfl, missing, if_pos (Symbol.isNamed_iff.mpr rfl)]
      simp
    · -- Another key leads to where it led: its scope has the other map, or its name is another.
      have other : symbol.isNamed scope name = false :=
        Bool.eq_false_iff.mpr fun named => isKey (Symbol.isNamed_iff.mp named)
      have kept : (if scope = symbol.kind.scope then
          (index.places scope).set symbol.name index.symbols.length
        else index.places scope).get? name = (index.places scope).get? name := by
        split
        next same =>
          rw [Table.get?_set, if_neg fun sameName => isKey (by rw [same, sameName, Symbol.key])]
        next => rfl
      rw [kept, sound.places, other]
      simp
  · rw [symbols_add, List.map_append, List.map_singleton]
    refine List.nodup_append.mpr ⟨sound.distinct, List.nodup_singleton _, ?_⟩
    rintro key mem other same rfl
    exact fresh (List.mem_singleton.mp same ▸ mem)

/-- No name leads to a place without a symbol. -/
theorem Sound.inside (sound : Sound index) {scope : Scope} {name : String} {place : Nat}
    (leads : (index.places scope).get? name = some place) :
    ∃ symbol, index.symbols[place]? = some symbol := by
  rw [sound.places] at leads
  obtain ⟨inside, -⟩ := List.findIdx?_eq_some_iff_getElem.mp leads
  exact ⟨_, List.getElem?_eq_getElem inside⟩

/-- A definition is refused with the symbol that has the key, or adds its symbol. -/
theorem Sound.define_eq (sound : Sound index) (symbol : Symbol) :
    index.define symbol =
      match index.symbols.find? (·.isNamed symbol.kind.scope symbol.name) with
      | some taken => some (.error taken, index)
      | none => some (.ok index.symbols.length, index.add symbol) := by
  rw [← sound.leads, define]
  cases leads : (index.places symbol.kind.scope).get? symbol.name with
  | none => rfl
  | some place =>
    obtain ⟨taken, isTaken⟩ := sound.inside leads
    simp [isTaken]

theorem Sound.lookup_eq (sound : Sound index) (name : String) :
    index.lookup name = some ((⟨index.symbols⟩ : SymbolTable).lookup name) := by
  rw [SymbolTable.lookup, SymbolTable.find?_eq, SymbolTable.find?_eq, ← sound.leads .file,
    ← sound.leads .package, lookup, SymbolIndex.places, SymbolIndex.places]
  cases file : index.file.get? name with
  | some place =>
    have leads : (index.places .file).get? name = some place := file
    obtain ⟨found, isFound⟩ := sound.inside leads
    simp [isFound]
  | none =>
    cases package : index.package.get? name with
    | some place =>
      have leads : (index.places .package).get? name = some place := package
      obtain ⟨found, isFound⟩ := sound.inside leads
      simp [isFound]
    | none => rfl

/-- A symbol without a rival is added, any other is refused with its rival. -/
theorem Sound.define_cases (sound : Sound index) (symbol : Symbol) :
    (∃ first ∈ index.symbols, first.Rivals symbol ∧
      index.define symbol = some (.error first, index) ∧
      (⟨index.symbols⟩ : SymbolTable).define symbol = .error first) ∨
    (∀ first ∈ index.symbols, ¬ first.Rivals symbol) ∧ Sound (index.add symbol) ∧
      index.define symbol = some (.ok index.symbols.length, index.add symbol) ∧
      (⟨index.symbols⟩ : SymbolTable).define symbol =
        .ok (index.symbols.length, ⟨index.symbols ++ [symbol]⟩) := by
  rw [sound.define_eq, SymbolTable.define, SymbolTable.find?_eq]
  cases found : index.symbols.find? (·.isNamed symbol.kind.scope symbol.name) with
  | some first =>
    have isNamed := Symbol.isNamed_iff.mp (List.find?_some found)
    exact .inl ⟨first, List.mem_of_find?_eq_some found, Symbol.rivals_iff.mpr isNamed, rfl, rfl⟩
  | none =>
    have noRival : ∀ first ∈ index.symbols, ¬ first.Rivals symbol := by
      intro first mem rivals
      exact List.find?_eq_none.mp found first mem
        (Symbol.isNamed_iff.mpr (Symbol.rivals_iff.mp rivals))
    refine .inr ⟨noRival, sound.add fun mem => ?_, rfl, rfl⟩
    obtain ⟨first, mem, same⟩ := List.mem_map.mp mem
    exact noRival first mem (Symbol.rivals_iff.mpr same)

/-! ### Sequences of definitions -/

/-- The symbols whose definition succeeded. -/
def accepted (calls : List Symbol) (answers : List (Except Symbol Nat)) : List Symbol :=
  ((calls.zip answers).filter (·.2.isOk)).map (·.1)

theorem accepted_ok (symbol : Symbol) (number : Nat) (calls : List Symbol)
    (answers : List (Except Symbol Nat)) :
    accepted (symbol :: calls) (.ok number :: answers) = symbol :: accepted calls answers := rfl

theorem accepted_error (symbol taken : Symbol) (calls : List Symbol)
    (answers : List (Except Symbol Nat)) :
    accepted (symbol :: calls) (.error taken :: answers) = accepted calls answers := rfl

/-- What a sequence of definitions that starts at a table answers, and what stands in the table
after it. -/
structure Ran (index : SymbolIndex) (calls : List Symbol) (answers : List (Except Symbol Nat))
    (last : SymbolIndex) : Prop where
  sound : Sound last
  ran : index.defineAll calls = some (answers, last)
  size : answers.length = calls.length
  symbols : last.symbols = index.symbols ++ accepted calls answers
  numbers : answers.filterMap Except.toOption =
    List.range' index.symbols.length (accepted calls answers).length
  numbered : ∀ call number, (call, .ok number) ∈ calls.zip answers →
    last.symbols[number]? = some call
  table : (⟨index.symbols⟩ : SymbolTable).defineAll calls = (answers, ⟨last.symbols⟩)

theorem Sound.defineAll (sound : Sound index) (calls : List Symbol) :
    ∃ answers last, Ran index calls answers last := by
  induction calls generalizing index with
  | nil =>
    exact ⟨[], index, sound, rfl, rfl, by simp [accepted], rfl, by simp, rfl⟩
  | cons symbol later ih =>
    obtain ⟨first, -, -, refused, refusedToo⟩ | ⟨-, soundNext, added, addedToo⟩ :=
      sound.define_cases symbol
    · obtain ⟨answers, last, ran⟩ := ih sound
      refine ⟨.error first :: answers, last, ran.sound, ?_, ?_, ?_, ?_, ?_, ?_⟩
      · simp [SymbolIndex.defineAll, refused, ran.ran]
      · simp [ran.size]
      · rw [ran.symbols, accepted_error]
      · rw [accepted_error, ← ran.numbers]
        rfl
      · intro call number mem
        rcases List.mem_cons.mp mem with same | mem
        · simp at same
        · exact ran.numbered call number mem
      · simp [SymbolTable.defineAll, refusedToo, ran.table]
    · obtain ⟨answers, last, ran⟩ := ih soundNext
      have grown := ran.symbols
      rw [symbols_add, List.append_assoc, List.singleton_append] at grown
      refine ⟨.ok index.symbols.length :: answers, last, ran.sound, ?_, ?_, ?_, ?_, ?_, ?_⟩
      · simp [SymbolIndex.defineAll, added, ran.ran]
      · simp [ran.size]
      · rw [grown, accepted_ok]
      · rw [accepted_ok, List.length_cons, List.range'_succ]
        have numbers := ran.numbers
        rw [symbols_add, List.length_append, List.length_singleton] at numbers
        rw [← numbers]
        rfl
      · intro call number mem
        rcases List.mem_cons.mp mem with same | mem
        · obtain ⟨rfl, isNumber⟩ := Prod.mk.inj same
          obtain rfl := Except.ok.inj isNumber
          rw [grown]
          simp
        · exact ran.numbered call number mem
      · have table := ran.table
        rw [symbols_add] at table
        simp [SymbolTable.defineAll, addedToo, table]

/-- Keys are not repeated, so that a search finds the symbol that has the key. -/
theorem Sound.find?_eq_some (sound : Sound index) {scope : Scope} {name : String} {found : Symbol} :
    index.symbols.find? (·.isNamed scope name) = some found ↔
      found ∈ index.symbols ∧ found.key = (scope, name) := by
  constructor
  · intro isFound
    exact ⟨List.mem_of_find?_eq_some isFound, Symbol.isNamed_iff.mp (List.find?_some isFound)⟩
  · rintro ⟨mem, isKey⟩
    cases other : index.symbols.find? (·.isNamed scope name) with
    | none => exact absurd (Symbol.isNamed_iff.mpr isKey) (List.find?_eq_none.mp other found mem)
    | some first =>
      have isKeyToo := Symbol.isNamed_iff.mp (List.find?_some other)
      rw [List.inj_on_of_nodup_map sound.distinct (List.mem_of_find?_eq_some other) mem
        (isKeyToo.trans isKey.symm)]

theorem find?_eq_none {scope : Scope} {name : String} :
    index.symbols.find? (·.isNamed scope name) = none ↔
      ∀ symbol ∈ index.symbols, symbol.name = name → symbol.kind.scope ≠ scope := by
  simp [List.find?_eq_none, Symbol.isNamed]

/-- A name means its import, or its declaration if it has no import. -/
theorem Sound.lookup_eq_some (sound : Sound index) {name : String} {found : Symbol} :
    index.lookup name = some (some found) ↔
      found ∈ index.symbols ∧ found.name = name ∧
        (found.kind.scope = .file ∨
          ∀ other ∈ index.symbols, other.name = name → other.kind.scope ≠ .file) := by
  rw [sound.lookup_eq, Option.some_inj, SymbolTable.lookup, SymbolTable.find?_eq,
    SymbolTable.find?_eq, Option.or_eq_some_iff, sound.find?_eq_some, sound.find?_eq_some,
    find?_eq_none]
  constructor
  · rintro (⟨mem, isKey⟩ | ⟨noImport, mem, isKey⟩)
    · exact ⟨mem, congrArg Prod.snd isKey, .inl (congrArg Prod.fst isKey)⟩
    · exact ⟨mem, congrArg Prod.snd isKey, .inr noImport⟩
  · rintro ⟨mem, rfl, imported | noImport⟩
    · exact .inl ⟨mem, by rw [Symbol.key, imported]⟩
    · refine .inr ⟨noImport, mem, ?_⟩
      have declared := noImport found mem rfl
      cases scope : found.kind.scope with
      | file => exact absurd scope declared
      | package => rw [Symbol.key, scope]

theorem Sound.lookup_eq_none (sound : Sound index) {name : String} :
    index.lookup name = some none ↔ ∀ symbol ∈ index.symbols, symbol.name ≠ name := by
  rw [sound.lookup_eq, Option.some_inj, SymbolTable.lookup, SymbolTable.find?_eq,
    SymbolTable.find?_eq, Option.or_eq_none_iff, find?_eq_none, find?_eq_none]
  constructor
  · rintro ⟨noImport, noDeclaration⟩ symbol mem named
    cases scope : symbol.kind.scope with
    | file => exact noImport symbol mem named scope
    | package => exact noDeclaration symbol mem named scope
  · intro unnamed
    exact ⟨fun symbol mem named => absurd named (unnamed symbol mem),
      fun symbol mem named => absurd named (unnamed symbol mem)⟩

/-- After any sequence of definitions, answered and kept as the list of symbols answers and keeps
them: the numbers of the definitions that succeeded count up from zero, and each leads to its symbol
now and after any further definitions. The next definition is refused if an earlier one that
succeeded took the name in the same scope, and then it gives that symbol and changes nothing. A name
means its import, else its declaration, else nothing. -/
theorem defineAll_exact (calls : List Symbol) :
    ∃ answers index, ({} : SymbolIndex).defineAll calls = some (answers, index) ∧
      answers.length = calls.length ∧
      let made := accepted calls answers
      answers.filterMap Except.toOption = List.range made.length ∧
      (∀ call number, (call, .ok number) ∈ calls.zip answers →
        index.get? number = some call ∧
          ∀ later, ∃ more last, index.defineAll later = some (more, last) ∧
            last.get? number = some call) ∧
      (∀ symbol,
        (∃ first ∈ made, first.Rivals symbol ∧
          index.define symbol = some (.error first, index)) ∨
        (∀ first ∈ made, ¬ first.Rivals symbol) ∧
          index.define symbol = some (.ok made.length, index.add symbol)) ∧
      (∀ name found, index.lookup name = some (some found) ↔
        found ∈ made ∧ found.name = name ∧
          (found.kind.scope = .file ∨
            ∀ other ∈ made, other.name = name → other.kind.scope ≠ .file)) ∧
      (∀ name, index.lookup name = some none ↔ ∀ symbol ∈ made, symbol.name ≠ name) ∧
      ({} : SymbolTable).defineAll calls = (answers, ⟨made⟩) ∧
      ∀ name, index.lookup name = some ((⟨made⟩ : SymbolTable).lookup name) := by
  obtain ⟨answers, index, ran⟩ := sound_empty.defineAll calls
  have symbols : index.symbols = accepted calls answers := ran.symbols
  refine ⟨answers, index, ran.ran, ran.size, ?_⟩
  rw [← symbols]
  refine ⟨?_, fun call number mem => ⟨ran.numbered call number mem, fun later => ?_⟩,
    fun symbol => ?_, fun name found => ran.sound.lookup_eq_some,
    fun name => ran.sound.lookup_eq_none, ran.table, ran.sound.lookup_eq⟩
  · rw [ran.numbers, symbols, List.range_eq_range']
    rfl
  · obtain ⟨more, last, further⟩ := ran.sound.defineAll later
    have kept := ran.numbered call number mem
    refine ⟨more, last, further.ran, ?_⟩
    rw [get?, further.symbols, List.getElem?_append_left (List.getElem?_eq_some_iff.mp kept).1,
      kept]
  · obtain ⟨first, mem, rivals, refused, -⟩ | ⟨noRival, -, added, -⟩ :=
      ran.sound.define_cases symbol
    · exact .inl ⟨first, mem, rivals, refused⟩
    · exact .inr ⟨noRival, added⟩

/-- A declaration may share its name with an import, a second import may not. -/
theorem defineAll_exact_shared_name :
    let imported : Symbol := ⟨"fmt", .imported "fmt", ⟨18, 23⟩, ⟨2, 8⟩⟩
    let declared : Symbol := ⟨"fmt", .declared .var, ⟨28, 31⟩, ⟨3, 5⟩⟩
    let again : Symbol := ⟨"fmt", .imported "a/fmt", ⟨39, 46⟩, ⟨4, 8⟩⟩
    ∃ answers index, ({} : SymbolIndex).defineAll [imported, declared, again] =
        some (answers, index) ∧
      answers = [.ok 0, .ok 1, .error imported] ∧
      (declared, .ok 1) ∈ [imported, declared, again].zip answers ∧
      index.get? 1 = some declared ∧ index.lookup "fmt" = some (some imported) := by
  intro imported declared again
  obtain ⟨answers, index, ran, -, -, numbered, -, means, -⟩ :=
    defineAll_exact [imported, declared, again]
  obtain rfl : answers = [.ok 0, .ok 1, .error imported] :=
    congrArg Prod.fst (Option.some.inj (ran.symm.trans rfl))
  have answered : (declared, Except.ok 1) ∈ [imported, declared, again].zip
      [Except.ok 0, Except.ok 1, Except.error imported] := .tail _ (.head _)
  exact ⟨_, index, ran, rfl, answered, (numbered declared 1 answered).1,
    (means "fmt" imported).mpr ⟨.head _, rfl, .inl rfl⟩⟩

end SymbolIndex

end GoFront
