/-!
File names as slash-separated paths: their elements, their canonical spelling, joining, and the
split of a last element into stem and extension.
-/
namespace GoFront.Path

/-- The parts of the text between the separators; one part more than there are separators. -/
def split (separator : Char) : List Char → List (List Char)
  | [] => [[]]
  | c :: rest =>
    if c = separator then [] :: split separator rest
    else
      match split separator rest with
      | [] => [[c]]
      | part :: parts => (c :: part) :: parts

def glue (separator : Char) : List (List Char) → List Char
  | [] => []
  | [part] => part
  | part :: parts => part ++ separator :: glue separator parts

/-- The elements that count: not empty, and not the dot that means the directory itself. -/
def elements (name : List Char) : List (List Char) :=
  (split '/' name).filter fun part => part ≠ [] ∧ part ≠ ['.']

def isRooted : List Char → Bool
  | '/' :: _ => true
  | _ => false

/-- The canonical spelling of a name: no empty and no dot elements and no slash at the end. An
element `..` is kept, because what it means depends on the directories. A name without elements
stays as it is, unless it is the root. -/
def normalizeChars (name : List Char) : List Char :=
  let parts := elements name
  if isRooted name then '/' :: glue '/' parts
  else if parts = [] then name
  else glue '/' parts

/-- The canonical spelling of a file name, which is the identity of the file. -/
def normalize (name : String) : String := String.ofList (normalizeChars name.toList)

/-- The name of `child` inside the directory, as it is spelled. -/
def join (directory child : String) : String :=
  if directory = "" then child
  else if directory.toList.getLast? = some '/' then directory ++ child
  else directory ++ "/" ++ child

/-- A last element split at its last dot. A dot in front of everything else does not count. -/
def stemAndExtension (name : List Char) : List Char × Option (List Char) :=
  let extension := (name.reverse.takeWhile (· ≠ '.')).reverse
  let stem := name.take (name.length - extension.length - 1)
  if name = ['.', '.'] || extension.length = name.length || stem = [] then (name, none)
  else (stem, some extension)

end GoFront.Path
