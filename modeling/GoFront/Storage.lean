import GoFront.Path
import GoFront.Text.Bytes

/-!
Files and directories as the program sees them. A `Tree` is a set of files and directories under a
working directory; names are resolved in it one element at a time, and fail the way the operating
system fails them.
-/
namespace GoFront

inductive FileError where
  | notFound | notDirectory | isDirectory | nameTooLong | nulInName | notText
  /-- Any other error of the operating system, with its number and its text. -/
  | other (number : Nat) (text : String)
  deriving DecidableEq, Repr

namespace FileError

def message : FileError → String
  | notFound => "No such file or directory (os error 2)"
  | notDirectory => "Not a directory (os error 20)"
  | isDirectory => "Is a directory (os error 21)"
  | nameTooLong => "File name too long (os error 36)"
  | nulInName => "file name contained an unexpected NUL byte"
  | notText => "stream did not contain valid UTF-8"
  | other number text => s!"{text} (os error {number})"

/-- The error with a number of the operating system. -/
def ofNumber (number : Nat) (text : String) : FileError :=
  match number with
  | 2 => notFound
  | 20 => notDirectory
  | 21 => isDirectory
  | 36 => nameTooLong
  | _ => other number text

end FileError

inductive Content where
  | text (value : String)
  /-- Bytes that are not UTF-8. -/
  | undecodable (size : Nat)
  /-- A run of zero bytes. -/
  | zeros (size : Nat)
  deriving Repr

namespace Content

def size : Content → Nat
  | text value => value.utf8ByteSize
  | undecodable size => size
  | zeros size => size

def decode : Content → Except FileError String
  | text value => .ok value
  | undecodable _ => .error .notText
  | zeros size => .ok (String.ofList (List.replicate size '\x00'))

end Content

inductive Node where
  | file (content : Content)
  | directory
  deriving Repr

namespace Node

def isFile : Node → Bool
  | file _ => true
  | directory => false

/-- The length in bytes; that of a directory is of no interest. -/
def size : Node → Nat
  | file content => content.size
  | directory => 0

end Node

/-- A name in a directory and whether it is a file. -/
structure Entry where
  name : String
  isFile : Bool
  deriving DecidableEq, Repr

/-- Files and directories under the working directory, each with the elements of its path. The
directories on the way to a node are there too, listed or not. -/
structure Tree where
  nodes : List (List String × Node)
  deriving Repr

namespace Tree

/-- The node at a path below the working directory. -/
def node? (tree : Tree) (path : List String) : Option Node :=
  match tree.nodes.lookup path with
  | some node => some node
  | none =>
    if path = [] || tree.nodes.any fun (other, _) => path.isPrefixOf other then some .directory
    else none

inductive Place where
  /-- Below the working directory, with the path in reverse. -/
  | inside (path : List String)
  /-- A directory outside of it, about which nothing is known. -/
  | outside
  deriving Repr

/-- One element of a name. A file has no elements below it. -/
def descend (tree : Tree) (place : Place) (part : List Char) : Except FileError Place :=
  match place with
  | .outside =>
    if part = [] || part = ['.'] || part = ['.', '.'] then .ok .outside else .error .notFound
  | .inside path =>
    match tree.node? path.reverse with
    | none => .error .notFound
    | some (.file _) => .error .notDirectory
    | some .directory =>
      if part = [] || part = ['.'] then .ok place
      else if part = ['.', '.'] then
        match path with
        | [] => .ok .outside
        | _ :: above => .ok (.inside above)
      else if 255 < Text.byteLength part then .error .nameTooLong
      else
        let below := String.ofList part :: path
        match tree.node? below.reverse with
        | some _ => .ok (.inside below)
        | none => .error .notFound

def resolve (tree : Tree) (name : String) : Except FileError Place :=
  let chars := name.toList
  if chars = [] then .error .notFound
  else if chars.contains '\x00' then .error .nulInName
  else
    let start := if Path.isRooted chars then Place.outside else .inside []
    (Path.split '/' chars).foldlM tree.descend start

def find (tree : Tree) (name : String) : Except FileError Node := do
  match ← tree.resolve name with
  | .outside => return .directory
  | .inside path =>
    match tree.node? path.reverse with
    | some node => return node
    | none => .error .notFound

def read (tree : Tree) (name : String) : Except FileError String := do
  match ← tree.find name with
  | .directory => .error .isDirectory
  | .file content => content.decode

/-- The names directly below a path, each once. -/
def children (tree : Tree) (path : List String) : List Entry :=
  let names := tree.nodes.filterMap fun (other, _) =>
    if path.isPrefixOf other then (other.drop path.length).head? else none
  names.eraseDups.map fun name =>
    ⟨name, ((tree.node? (path ++ [name])).map Node.isFile).getD false⟩

/-- The entries of the directory that a name leads to, if it leads to one. They can always be
read. -/
def entries? (tree : Tree) (name : String) : Option (Except FileError (List Entry)) :=
  match tree.resolve name with
  | .error _ => none
  | .ok .outside => some (.ok [])
  | .ok (.inside path) =>
    match tree.node? path.reverse with
    | some .directory => some (.ok (tree.children path.reverse))
    | _ => none

def size (tree : Tree) : Nat := tree.nodes.length

end Tree

end GoFront
