import GoFront.Lexer.Literal
import GoFront.Path
import GoFront.Text.Blank

/-! Settings of a compiler: their defaults, the environment and the build arguments over them. -/
namespace GoFront

structure Config where
  /-- Slots of each reply mailbox and each inbox. -/
  mailboxDepth : Nat := 4
  /-- Go on after the first failure. -/
  keepGoing : Bool := false
  /-- Where packages are searched, in order. -/
  searchPaths : List String := ["."]
  /-- The extension of source files, without the dot. -/
  sourceExtension : String := "go"
  deriving DecidableEq, Repr

structure BuildOptions where
  includes : List String := []
  keepGoing : Bool := false
  mailboxDepth : Option Nat := none
  deriving DecidableEq, Repr

namespace Config

/-- A number below two to the sixty-fourth: decimal digits, a plus sign allowed before them. -/
def number? (text : String) : Option Nat :=
  let digits := match text.toList with
    | '+' :: rest => rest
    | all => all
  let value := Lexer.positional 10 digits
  if digits ≠ [] ∧ digits.all (Lexer.isDigitOf 10) ∧ value < UInt64.size then some value else none

/-- A positive number below two to the sixty-fourth. -/
def positive? (text : String) : Option Nat := (number? text).filter (0 < ·)

def withMailboxDepth (config : Config) (depth : Nat) : Config :=
  { config with mailboxDepth := max depth 1 }

def withSearchPathFirst (config : Config) (path : String) : Config :=
  { config with searchPaths := path :: config.searchPaths }

/-- Sets the source extension; dots in front of it are dropped. -/
def withSourceExtension (config : Config) (extension : String) : Config :=
  { config with sourceExtension := String.ofList (extension.toList.dropWhile (· = '.')) }

/-- The roots of a search path with colons between them; empty entries are dropped. -/
def splitSearchPath (path : String) : List String :=
  ((Path.split ':' path.toList).filter (· ≠ [])).map String.ofList

/-- The defaults with the search path and the mailbox depth of the environment over them. A search
path without entries and a depth that is no positive number are ignored. -/
def ofEnvironment (path depth : Option String) : Config :=
  let config : Config := {}
  let config := match (path.map splitSearchPath).getD [] with
    | [] => config
    | roots => { config with searchPaths := roots }
  match depth.bind fun text => positive? (Text.trim text) with
  | some depth => { config with mailboxDepth := depth }
  | none => config

/-- The settings with build options over them: included roots come first, in their order. -/
def apply (config : Config) (options : BuildOptions) : Config :=
  let config := { config with
    keepGoing := options.keepGoing || config.keepGoing
    searchPaths := options.includes ++ config.searchPaths }
  match options.mailboxDepth with
  | some depth => config.withMailboxDepth depth
  | none => config

end Config

end GoFront
