import GoFront.Text.Bytes

/-!
Lines and columns, both counted from one; columns count bytes. An index of line starts turns byte
offsets into positions.
-/
namespace GoFront

/-- A line and a column, both counted from one. -/
structure Position where
  line : Nat
  column : Nat
  deriving DecidableEq, Repr, Inhabited

namespace Position

/-- The form `line:column`. -/
def text (p : Position) : String := s!"{p.line}:{p.column}"

end Position

/-- Offsets of the first byte of each line, in increasing order, and the length of the source. -/
structure LineIndex where
  starts : List Nat
  length : Nat
  deriving DecidableEq, Repr

namespace LineIndex

/-- Offsets just after each line feed, where `offset` is that of the first character given. -/
def breaks (offset : Nat) : List Char → List Nat
  | [] => []
  | c :: rest =>
    let next := offset + c.utf8Size
    if c = '\n' then next :: breaks next rest else breaks next rest

def ofChars (source : List Char) : LineIndex :=
  ⟨0 :: breaks 0 source, Text.byteLength source⟩

def ofSource (source : String) : LineIndex := ofChars source.toList

/-- The position of a byte offset; an offset past the end counts as the end. -/
def position (index : LineIndex) (offset : Nat) : Position :=
  let offset := min offset index.length
  let before := index.starts.takeWhile (· ≤ offset)
  ⟨before.length, offset - before.getLastD 0 + 1⟩

/-- Looks for a value between two places of an increasing list and halves what is left: gives the
place of the value, or the place where it would have to be put in. Nothing if it looks at a place
outside the list. -/
def bisect (list : List Nat) (value low high : Nat) : Option (Except Nat Nat) :=
  if low < high then
    let middle := (low + high) / 2
    match list[middle]? with
    | none => none
    | some found =>
      if found = value then some (.ok middle)
      else if found < value then bisect list value (middle + 1) high
      else bisect list value low middle
  else some (.error low)
termination_by high - low

/-- The position of an offset by bisection of the line starts. Nothing if the bisection or the line
found lies outside the list, or if a difference is below zero. -/
def position? (index : LineIndex) (offset : Nat) : Option Position := do
  let offset := min offset index.length
  let line ← match ← bisect index.starts offset 0 index.starts.length with
    | .ok place => some place
    | .error 0 => none
    | .error (next + 1) => some next
  let start ← index.starts[line]?
  if start ≤ offset then return ⟨line + 1, offset - start + 1⟩ else none

/-- Lines of the source; a line feed at its end opens one more. -/
def lineCount (index : LineIndex) : Nat := index.starts.length

end LineIndex

end GoFront
