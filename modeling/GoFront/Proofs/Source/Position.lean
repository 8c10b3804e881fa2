import GoFront.Source.Position
import Mathlib.Data.List.DropRight
import Mathlib.Data.List.TakeWhile

/-!
What line and column of an offset count. The table of line starts is read off the bytes of the
source, where only the line feed itself has the byte of a line feed, and its increasing order is all
that bisection needs.
-/
namespace GoFront

namespace Position

/-- The order of positions in a text: by lines, and by columns within a line. -/
def Before (a b : Position) : Prop := a.line < b.line ∨ a.line = b.line ∧ a.column < b.column

theorem Before.trans {a b c : Position} (first : a.Before b) (second : b.Before c) :
    a.Before c := by
  unfold Before at *
  omega

theorem Before.ne {a b : Position} (before : a.Before b) : a ≠ b := by
  rintro rfl
  unfold Before at before
  omega

end Position

namespace Text

def lineFeed : UInt8 := 10

/-- The bytes of a text in UTF-8. -/
def bytes (source : String) : List UInt8 := source.toUTF8.data.toList

theorem bytes_eq (source : String) :
    bytes source = source.toList.flatMap String.utf8EncodeChar := by
  simp [bytes, ← String.utf8Encode_toList, List.utf8Encode]

theorem length_utf8 (source : List Char) :
    (source.flatMap String.utf8EncodeChar).length = byteLength source := by
  induction source with
  | nil => rfl
  | cons c rest ih =>
    rw [List.flatMap_cons, List.length_append, String.length_utf8EncodeChar, ih, byteLength_cons]

theorem lineFeed_eq_ofNat {n : Nat} (below : n < 256) : lineFeed = UInt8.ofNat n ↔ n = 10 := by
  rw [← UInt8.toNat_inj, UInt8.toNat_ofNat', Nat.mod_eq_of_lt below]
  exact eq_comm

/-- No other character has the byte of a line feed in its encoding. -/
theorem lineFeed_not_mem {c : Char} (noFeed : c ≠ '\n') :
    lineFeed ∉ String.utf8EncodeChar c := by
  have single : c.val.toNat ≠ 10 := fun same => noFeed (Char.ext (UInt32.toNat_inj.mp same))
  intro mem
  unfold String.utf8EncodeChar at mem
  dsimp only at mem
  split_ifs at mem with one two three
  all_goals
    simp (disch := omega) only [List.mem_cons, List.not_mem_nil, or_false, lineFeed_eq_ofNat] at mem
    omega

end Text

namespace LineIndex

open Text (lineFeed bytes)

/-! ### The line starts of a text in bytes -/

/-- Offsets just after each line feed, where `offset` is that of the first byte given. -/
def feeds (offset : Nat) : List UInt8 → List Nat
  | [] => []
  | b :: rest =>
    if b = lineFeed then (offset + 1) :: feeds (offset + 1) rest else feeds (offset + 1) rest

theorem feeds_append (offset : Nat) (a b : List UInt8) :
    feeds offset (a ++ b) = feeds offset a ++ feeds (offset + a.length) b := by
  induction a generalizing offset with
  | nil => rfl
  | cons c rest ih =>
    simp only [List.cons_append, feeds, ih, List.length_cons, Nat.add_comm rest.length 1,
      Nat.add_assoc]
    split <;> rfl

theorem feeds_of_not_mem {offset : Nat} {text : List UInt8} (noFeed : lineFeed ∉ text) :
    feeds offset text = [] := by
  induction text generalizing offset with
  | nil => rfl
  | cons b rest ih =>
    obtain ⟨other, later⟩ := not_or.mp (List.mem_cons.not.mp noFeed)
    rw [feeds, if_neg (Ne.symm other), ih later]

/-- The line starts found character by character are those found byte by byte. -/
theorem breaks_eq_feeds (offset : Nat) (source : List Char) :
    breaks offset source = feeds offset (source.flatMap String.utf8EncodeChar) := by
  induction source generalizing offset with
  | nil => rfl
  | cons c rest ih =>
    rw [List.flatMap_cons, feeds_append, String.length_utf8EncodeChar, ← ih, breaks]
    split
    next isFeed => subst isFeed; rfl
    next noFeed => rw [feeds_of_not_mem (Text.lineFeed_not_mem noFeed), List.nil_append]

theorem ofSource_eq (source : String) :
    ofSource source = ⟨0 :: feeds 0 (bytes source), (bytes source).length⟩ := by
  rw [ofSource, ofChars, breaks_eq_feeds, Text.bytes_eq, Text.length_utf8]

theorem feeds_bounds {offset start : Nat} {text : List UInt8} (mem : start ∈ feeds offset text) :
    offset < start ∧ start ≤ offset + text.length := by
  induction text generalizing offset with
  | nil => simp [feeds] at mem
  | cons b rest ih =>
    rw [List.length_cons]
    simp only [feeds] at mem
    split at mem
    · rcases List.mem_cons.mp mem with rfl | later
      · omega
      · have := ih later
        omega
    · have := ih mem
      omega

theorem length_feeds (offset : Nat) (text : List UInt8) :
    (feeds offset text).length = text.count lineFeed := by
  induction text generalizing offset with
  | nil => rfl
  | cons b rest ih => by_cases isFeed : b = lineFeed <;> simp [feeds, isFeed, ih]

theorem sorted_feeds (offset : Nat) (text : List UInt8) :
    (offset :: feeds offset text).Pairwise (· < ·) := by
  refine List.pairwise_cons.mpr ⟨fun start mem => (feeds_bounds mem).1, ?_⟩
  induction text generalizing offset with
  | nil => exact .nil
  | cons b rest ih =>
    rw [feeds]
    split
    · exact List.pairwise_cons.mpr ⟨fun start mem => (feeds_bounds mem).1, ih _⟩
    · exact ih _

/-- The bytes behind the last line feed. -/
def lastLine (text : List UInt8) : List UInt8 := text.rtakeWhile (· ≠ lineFeed)

theorem lastLine_append (text : List UInt8) (b : UInt8) :
    lastLine (text ++ [b]) = if b = lineFeed then [] else lastLine text ++ [b] := by
  rw [lastLine, List.rtakeWhile_concat]
  split <;> simp_all [lastLine]

/-- The last line start and the bytes behind it make up the whole text. -/
theorem getLastD_feeds (text : List UInt8) :
    (feeds 0 text).getLastD 0 + (lastLine text).length = text.length := by
  induction text using List.reverseRecOn with
  | nil => rfl
  | append_singleton text b ih =>
    rw [feeds_append, lastLine_append, Nat.zero_add]
    by_cases isFeed : b = lineFeed
    · simp [feeds, isFeed]
    · simp [feeds, isFeed, ← ih, Nat.add_assoc]

theorem takeWhile_starts (front after : List UInt8) :
    (0 :: feeds 0 (front ++ after)).takeWhile (· ≤ front.length) = 0 :: feeds 0 front := by
  have passes : ∀ start ∈ feeds 0 front, decide (start ≤ front.length) = true := by
    intro start mem
    have := feeds_bounds mem
    exact decide_eq_true (by omega)
  have stops : (feeds (0 + front.length) after).takeWhile (· ≤ front.length) = [] := by
    cases later : feeds (0 + front.length) after with
    | nil => rfl
    | cons start starts =>
      have := feeds_bounds (later ▸ List.mem_cons_self)
      exact List.takeWhile_cons_of_neg (by simp; omega)
  rw [List.takeWhile_cons_of_pos (by simp), feeds_append, List.takeWhile_append_of_pos passes,
    stops, List.append_nil]

/-- The line counts the line feeds in front, the column the bytes since the last of them. -/
theorem position_of_bytes (source : String) (offset : Nat) :
    let front := (bytes source).take (min offset (bytes source).length)
    (ofSource source).position offset =
      ⟨1 + front.count lineFeed, 1 + (lastLine front).length⟩ := by
  intro front
  have size : min offset (bytes source).length = front.length := by simp [front]
  have split := (bytes source).take_append_drop (min offset (bytes source).length)
  have starts := takeWhile_starts front ((bytes source).drop (min offset (bytes source).length))
  have last := getLastD_feeds front
  rw [split] at starts
  rw [ofSource_eq]
  simp only [position, size, starts, List.length_cons, length_feeds, List.getLastD_cons]
  rw [Nat.add_comm, ← last, Nat.add_sub_cancel_left, Nat.add_comm _ 1]

/-- One byte further is the next column, or the next line behind a line feed. -/
theorem position_before_next {source : String} {offset : Nat}
    (within : offset < (bytes source).length) :
    ((ofSource source).position offset).Before ((ofSource source).position (offset + 1)) := by
  rw [position_of_bytes, position_of_bytes, Nat.min_eq_left within.le, Nat.min_eq_left within,
    List.take_add_one, List.getElem?_eq_getElem within, Option.toList_some, List.count_append,
    lastLine_append]
  by_cases isFeed : (bytes source)[offset] = lineFeed
  · refine .inl ?_
    simp [isFeed]
  · refine .inr ⟨?_, ?_⟩
    · simp [isFeed]
    · simp [isFeed]

theorem position_before {source : String} {a b : Nat} (less : a < b)
    (within : b ≤ (bytes source).length) :
    ((ofSource source).position a).Before ((ofSource source).position b) := by
  induction b, less using Nat.le_induction with
  | base => exact position_before_next within
  | succ b _ ih => exact (ih (by omega)).trans (position_before_next within)

/-! ### Looking a line up by bisection -/

/-- The place holds the value, or the value belongs in front of it. -/
def Sought (list : List Nat) (value : Nat) : Except Nat Nat → Prop
  | .ok place => list[place]? = some value
  | .error place => place ≤ list.length ∧ (∀ found ∈ list.take place, found < value) ∧
      ∀ found ∈ list.drop place, value < found

section Search

variable {list : List Nat} {value place found : Nat}

theorem take_succ_of_getElem? (isFound : list[place]? = some found) :
    list.take (place + 1) = list.take place ++ [found] := by
  rw [List.take_add_one, isFound, Option.toList_some]

theorem sorted_around (sorted : list.Pairwise (· < ·)) (isFound : list[place]? = some found) :
    (∀ earlier ∈ list.take place, earlier < found) ∧
      ∀ later ∈ list.drop (place + 1), found < later := by
  obtain ⟨within, rfl⟩ := List.getElem?_eq_some_iff.mp isFound
  rw [← List.take_append_drop place list, List.drop_eq_getElem_cons within] at sorted
  obtain ⟨-, around, before⟩ := List.pairwise_append.mp sorted
  exact ⟨fun earlier mem => before earlier mem _ List.mem_cons_self,
    (List.pairwise_cons.mp around).1⟩

theorem bisect_sought (sorted : list.Pairwise (· < ·)) {low high : Nat}
    (within : low ≤ high ∧ high ≤ list.length)
    (below : ∀ found ∈ list.take low, found < value)
    (above : ∀ found ∈ list.drop high, value < found) :
    ∃ result, bisect list value low high = some result ∧ Sought list value result := by
  fun_induction bisect list value low high with
  | case1 low high less middle outside =>
    have := List.getElem?_eq_none_iff.mp outside
    omega
  | case2 low high less middle isFound => exact ⟨_, rfl, isFound⟩
  | case3 low high less middle found isFound other smaller ih =>
    refine ih ⟨by omega, within.2⟩ (fun earlier mem => ?_) above
    rw [take_succ_of_getElem? isFound, List.mem_append, List.mem_singleton] at mem
    rcases mem with front | rfl
    · exact ((sorted_around sorted isFound).1 earlier front).trans smaller
    · exact smaller
  | case4 low high less middle found isFound other larger ih =>
    refine ih ⟨by omega, by omega⟩ below fun later mem => ?_
    obtain ⟨inside, isMiddle⟩ := List.getElem?_eq_some_iff.mp isFound
    rw [List.drop_eq_getElem_cons inside, isMiddle] at mem
    rcases List.mem_cons.mp mem with rfl | after
    · omega
    · have := (sorted_around sorted isFound).2 later after
      omega
  | case5 low high done =>
    obtain rfl : low = high := by omega
    exact ⟨_, rfl, within.2, below, above⟩

theorem takeWhile_eq_take (passes : ∀ found ∈ list.take place, found ≤ value)
    (stops : ∀ found ∈ list.drop place, value < found) :
    list.takeWhile (· ≤ value) = list.take place := by
  have none : (list.drop place).takeWhile (· ≤ value) = [] := by
    cases rest : list.drop place with
    | nil => rfl
    | cons next later =>
      have := stops next (rest ▸ List.mem_cons_self)
      exact List.takeWhile_cons_of_neg (by simp; omega)
  conv_lhs => rw [← List.take_append_drop place list]
  rw [List.takeWhile_append_of_pos (fun found mem => decide_eq_true (passes found mem)), none,
    List.append_nil]

end Search

/-- The last line that starts at or before the offset is the line of the offset. -/
theorem position_of_line {index : LineIndex} {offset line start : Nat}
    (isStart : index.starts[line]? = some start)
    (before : ∀ found ∈ index.starts.take line, found < min offset index.length)
    (isBefore : start ≤ min offset index.length)
    (after : ∀ found ∈ index.starts.drop (line + 1), min offset index.length < found) :
    index.position offset = ⟨line + 1, min offset index.length - start + 1⟩ := by
  have passes : ∀ found ∈ index.starts.take (line + 1), found ≤ min offset index.length := by
    rw [take_succ_of_getElem? isStart]
    intro found mem
    rcases List.mem_append.mp mem with front | last
    · exact (before found front).le
    · exact List.mem_singleton.mp last ▸ isBefore
  obtain ⟨inside, -⟩ := List.getElem?_eq_some_iff.mp isStart
  simp only [position, takeWhile_eq_take passes after]
  rw [take_succ_of_getElem? isStart]
  simp [inside.le]

theorem position?_eq (source : String) (offset : Nat) :
    (ofSource source).position? offset = some ((ofSource source).position offset) := by
  have sorted : (ofSource source).starts.Pairwise (· < ·) := by
    rw [ofSource_eq]
    exact sorted_feeds 0 _
  have first : (ofSource source).starts[0]? = some 0 := rfl
  generalize ofSource source = index at sorted first
  obtain ⟨result, isResult, sought⟩ :
      ∃ result, bisect index.starts (min offset index.length) 0 index.starts.length = some result ∧
        Sought index.starts (min offset index.length) result :=
    bisect_sought sorted ⟨Nat.zero_le _, le_rfl⟩ (by simp) (by simp)
  simp only [position?, isResult]
  cases result with
  | ok place =>
    obtain ⟨before, after⟩ := sorted_around sorted sought
    have isStart : index.starts[place]? = some (min offset index.length) := sought
    simp [isStart, position_of_line isStart before le_rfl after]
  | error next =>
    obtain ⟨inside, before, after⟩ := sought
    cases next with
    | zero =>
      -- The first line starts at zero, so that no offset belongs in front of it.
      have := after 0 (List.mem_of_getElem? first)
      omega
    | succ line =>
      have isStart := List.getElem?_eq_getElem inside
      rw [take_succ_of_getElem? isStart] at before
      have isBefore := (before _ (List.mem_append_right _ List.mem_cons_self)).le
      rw [position_of_line isStart (fun found mem => before found (List.mem_append_left _ mem))
        isBefore after]
      simp only [Option.bind_eq_bind, Option.bind_some, isStart, isBefore, if_true]
      rfl

/-- The position of an offset is the naive one, whatever the offset: the line counts the line feeds
in front of it and the column the bytes behind the last of those, with an offset past the end taken
for the end. Bisection finds it without leaving the line starts or subtracting below zero. Up to the
end of the text a later offset has a later position, so that no two share one. -/
theorem position_exact (source : String) :
    let text := bytes source
    let index := ofSource source
    (∀ offset, let front := text.take (min offset text.length)
      index.position offset = ⟨1 + front.count lineFeed, 1 + (lastLine front).length⟩ ∧
        index.position? offset = some (index.position offset)) ∧
    (∀ a b, a < b → b ≤ text.length → (index.position a).Before (index.position b)) ∧
    (∀ a b, a ≤ text.length → b ≤ text.length → index.position a = index.position b → a = b) ∧
    index.lineCount = 1 + text.count lineFeed := by
  intro text index
  have before : ∀ a b, a < b → b ≤ text.length →
      (index.position a).Before (index.position b) := fun a b => position_before
  refine ⟨fun offset => ⟨position_of_bytes source offset, position?_eq source offset⟩, before,
    ?_, ?_⟩
  · intro a b inside insideToo same
    rcases Nat.lt_trichotomy a b with less | rfl | more
    · exact absurd same (before a b less insideToo).ne
    · rfl
    · exact absurd same.symm (before b a more inside).ne
  · change (ofSource source).lineCount = _
    rw [lineCount, ofSource_eq, List.length_cons, length_feeds, Nat.add_comm]

/-- The line feed at offset 9 still belongs to the line that it ends. -/
theorem position_exact_break :
    let index := ofSource "package a\n\nimport"
    (9 < 10 ∧ 10 ≤ (bytes "package a\n\nimport").length) ∧
      index.position 9 = ⟨1, 10⟩ ∧ index.position 10 = ⟨2, 1⟩ ∧
      (index.position 9).Before (index.position 10) := by
  have within : 10 ≤ (bytes "package a\n\nimport").length := by decide
  obtain ⟨-, before, -, -⟩ := position_exact "package a\n\nimport"
  exact ⟨⟨by decide, within⟩, by decide, by decide, before 9 10 (by decide) within⟩

end LineIndex

end GoFront
