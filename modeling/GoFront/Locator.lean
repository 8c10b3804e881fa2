import GoFront.Failure
import GoFront.Storage

/-!
Finding the files of a package. A package is a directory below one of the search roots; the first
root that has the directory wins. Its members are the files with the source extension that are not
tests, in the order of their names.
-/
namespace GoFront

/-- Where packages are searched, and the extension of source files. -/
structure Locator where
  roots : List String
  extension : String
  deriving Repr

namespace Locator

/-- An element that a package name may not have. -/
def isForbidden (part : List Char) : Bool := part = [] || part = ['.'] || part = ['.', '.']

/-- Package names are relative and stay below their root. -/
def checkName (package : String) : Except LocateError Unit :=
  let name := package.toList
  if name = [] then .error (.invalidName package "empty import path")
  else if Path.isRooted name then .error (.invalidName package "import path must be relative")
  else if (Path.split '/' name).any isForbidden then
    .error (.invalidName package "import path may not contain empty, '.' or '..' elements")
  else .ok ()

def testMark : List Char := "_test".toList

def isMember (locator : Locator) (entry : Entry) : Bool :=
  let (stem, extension) := Path.stemAndExtension entry.name.toList
  entry.isFile && extension = some locator.extension.toList && !testMark.isSuffixOf stem

/-- The members of the package in a directory with these entries. -/
def members (locator : Locator) (directory : String) (entries : List Entry) : List String :=
  let names := (entries.filter locator.isMember).map (·.name)
  (names.mergeSort fun a b => a ≤ b).map fun name => Path.normalize (Path.join directory name)

/-- The directories where the package may be, in the order of the roots. -/
def candidates (locator : Locator) (package : String) : List String :=
  locator.roots.map fun root => Path.join root package

/-- The member files of a package. For a name that leads to a directory `entries?` gives the
entries, or why they cannot be read. -/
def locate (locator : Locator) (entries? : String → Option (Except FileError (List Entry)))
    (package : String) : Except LocateError (List String) := do
  checkName package
  let found := (locator.candidates package).findSome? fun directory =>
    (entries? directory).map fun listing => (directory, listing)
  match found with
  | some (directory, .ok entries) => return locator.members directory entries
  | some (directory, .error error) => .error (.unreadable directory error.message)
  | none => .error (.notFound package (locator.candidates package))

end Locator

end GoFront
